import MessageCatalog.Proofs.Json.Written
import MessageCatalog.Proofs.Sheet.RoundTrip

/-!
# MessageCatalog.Proofs.Sheet.Lines -- a table as the text of a file

A file is read with one kind of line end, whatever kinds it was written with. The rows of a table
end all the same, but a carriage return inside a field is lost, in a key as in a text. A table whose
names, keys and texts hold none is read from a file as it was written; the cells of further fields
do not matter.
-/

namespace MessageCatalog.Text

/-! ## Line ends -/

/-- Line ends are made the same part by part, as long as no line is ended across the parts. -/
theorem unifyLineEnds_append {rest : List Char} (apart : rest.head? ≠ some '\n')
    (text : List Char) :
    unifyLineEnds (text ++ rest) = unifyLineEnds text ++ unifyLineEnds rest := by
  fun_induction unifyLineEnds text with
  | case1 => rfl
  | case2 text ih => rw [List.cons_append, List.cons_append, unifyLineEnds, ih, List.cons_append]
  | case3 text single ih =>
      have stillSingle : ∀ more, text ++ rest = '\n' :: more → False := by
        intro more joined
        cases text with
        | nil => exact apart (by rw [← List.nil_append rest, joined]; rfl)
        | cons c others =>
            injection joined with first
            exact single others (by rw [first])
      rw [List.cons_append, unifyLineEnds, ih, List.cons_append]
      exact stillSingle
  | case4 c text noPair noReturn ih =>
      rw [List.cons_append, unifyLineEnds, ih, List.cons_append]
      · exact fun more same _ => noReturn same
      · exact noReturn

/-- A text with line ends of one kind. -/
def unified (text : String) : String := String.ofList (unifyLineEnds text.toList)

theorem unified_of_not_mem {text : String} (h : '\r' ∉ text.toList) : unified text = text := by
  rw [unified, Json.unifyLineEnds_of_not_mem h, String.ofList_toList]

end MessageCatalog.Text

namespace MessageCatalog.Sheet

open MessageCatalog.Config MessageCatalog.Message MessageCatalog.Store MessageCatalog.Text

/-! ## Rows -/

theorem unifyLineEnds_doubled (text : List Char) :
    unifyLineEnds (text.flatMap doubled) = (unifyLineEnds text).flatMap doubled := by
  have plain : ∀ {c : Char}, c = '\r' ∨ c = '\n' → doubled c = [c] := by
    rintro c (rfl | rfl)
    · rfl
    · rfl
  fun_induction unifyLineEnds text with
  | case1 => rfl
  | case2 text ih =>
      rw [List.flatMap_cons, List.flatMap_cons, List.flatMap_cons, ← ih, plain (Or.inl rfl),
        plain (Or.inr rfl)]
      rfl
  | case3 text single ih =>
      have stillSingle : ∀ more, text.flatMap doubled = '\n' :: more → False := by
        intro more joined
        cases text with
        | nil => cases joined
        | cons c others =>
            by_cases quote : c = '"'
            · subst quote
              cases joined
            · rw [List.flatMap_cons, doubled, if_neg quote] at joined
              injection joined with first
              exact single others (by rw [first])
      rw [List.flatMap_cons, List.flatMap_cons, ← ih, plain (Or.inl rfl), plain (Or.inr rfl),
        List.singleton_append, unifyLineEnds]
      · rfl
      · exact stillSingle
  | case4 c text noPair noReturn ih =>
      have front : ∀ behind : List Char, unifyLineEnds (doubled c ++ behind) =
          doubled c ++ unifyLineEnds behind := by
        intro behind
        by_cases quote : c = '"'
        · subst quote
          rfl
        · rw [doubled, if_neg quote, List.singleton_append, List.singleton_append, unifyLineEnds]
          · exact fun more same _ => noReturn same
          · exact noReturn
      rw [List.flatMap_cons, List.flatMap_cons, front, ih]

theorem unifyLineEnds_fieldChars (field : String) :
    unifyLineEnds (fieldChars field) = fieldChars (unified field) := by
  have closed : unifyLineEnds (field.toList.flatMap doubled ++ ['"']) =
      (unifyLineEnds field.toList).flatMap doubled ++ ['"'] := by
    rw [unifyLineEnds_append (by decide), unifyLineEnds_doubled]
    rfl
  show '"' :: unifyLineEnds (field.toList.flatMap doubled ++ ['"']) = _
  rw [closed, fieldChars, unified, String.toList_ofList]

theorem unifyLineEnds_cellChars (row : List String) :
    unifyLineEnds (cellChars row) = cellChars (row.map unified) := by
  induction row with
  | nil => rfl
  | cons field rest ih =>
      cases rest with
      | nil => rw [List.map_singleton, cellChars_singleton, cellChars_singleton, unifyLineEnds_fieldChars]
      | cons next others =>
          have more : (next :: others).map unified ≠ [] := by simp
          have comma : ∀ behind : List Char, unifyLineEnds (',' :: behind) =
              ',' :: unifyLineEnds behind := fun _ => rfl
          rw [List.map_cons, cellChars_cons field (List.cons_ne_nil _ _),
            cellChars_cons (unified field) more, unifyLineEnds_append (by simp),
            unifyLineEnds_fieldChars, comma, ih]

/-- The rows of a table as they come out of a file. -/
theorem unifyLineEnds_rows (rows : List (List String)) :
    unifyLineEnds (rows.flatMap rowChars) =
      (rows.map (List.map unified)).flatMap fun row => cellChars row ++ ['\n'] := by
  have start : ∀ rows : List (List String), (rows.flatMap rowChars).head? ≠ some '\n' := by
    intro rows
    cases rows with
    | nil => simp
    | cons row others =>
        cases row with
        | nil => simp [rowChars, cellChars]
        | cons field rest =>
            cases rest with
            | nil => simp [rowChars, cellChars_singleton, fieldChars]
            | cons next more => simp [rowChars, cellChars_cons, fieldChars]
  induction rows with
  | nil => rfl
  | cons row others ih =>
      have lineEnd : ['\r', '\n'].head? ≠ some '\n' := by decide
      rw [List.flatMap_cons, unifyLineEnds_append (start others), ih, rowChars,
        unifyLineEnds_append lineEnd, unifyLineEnds_cellChars]
      rfl

/-! ## Records -/

/-- A record with its cells as they come out of a file. -/
def Record.unified (record : Record) : Record := ⟨record.names, record.cells.map Text.unified⟩

theorem get?_unified (record : Record) (name : String) :
    record.unified.get? name = (record.get? name).map Text.unified := by
  unfold Record.get? Record.unified
  dsimp only
  split
  · rw [List.getElem?_map]
  · rfl

variable {format : SheetFormat} {locale : String} {store : Store}

/-- A table comes out of a file with the records that were written, their cells unified, when the
names of its columns hold no carriage return. -/
theorem readRecords_lines (h : DefaultMarks format)
    (names : ∀ name ∈ header format locale, '\r' ∉ name.toList) :
    readRecords defaultMarks (unifyLineEnds (writeStore format store locale).toList) =
      (sortedEntries store).map fun item => (rowRecord format locale item).unified := by
  have some' : ∀ row ∈ (storeRows format store locale).map (List.map unified), row ≠ [] := by
    intro row there
    obtain ⟨written, inside, rfl⟩ := List.mem_map.mp there
    exact mt List.map_eq_nil_iff.mp (storeRows_ne_nil format store locale written inside)
  have same : (header format locale).map unified = header format locale := by
    have each : (header format locale).map unified = (header format locale).map id :=
      List.map_congr_left fun name there => unified_of_not_mem (names name there)
    rw [each, List.map_id]
  have full : (((sortedEntries store).map fun item => entryRow format item.1 item.2).map
      (List.map unified)).filter (fun cells => !cells.isEmpty) =
        (sortedEntries store).map fun item => (entryRow format item.1 item.2).map unified := by
    rw [List.map_map, List.filter_eq_self.mpr]
    · rfl
    · intro row there
      obtain ⟨item, -, rfl⟩ := List.mem_map.mp there
      rfl
  rw [readRecords, toList_writeStore h, unifyLineEnds_rows, readRows_cellChars (Or.inr rfl) some',
    storeRows_eq, List.map_cons]
  dsimp only
  rw [full, same, List.map_map]
  rfl

/-! ## What is read -/

variable {options : Options} {engines : Keyed Engine} {file : Option String}

/-- A row gives what stands in its columns of keys and of the locales that are read. -/
theorem addRecord_congr {record other : Record} (done : Imported × Report.Log)
    (label : other.get? options.sheet.keyLabel = record.get? options.sheet.keyLabel)
    (columns : ∀ own ∈ engines.pairs, other.get? own.1 = record.get? own.1) :
    addRecord options engines file done other = addRecord options engines file done record := by
  unfold addRecord
  rw [label]
  split
  · rfl
  split
  · rfl
  refine List.foldl_ext _ _ done fun done own there => ?_
  unfold addCell
  rw [columns own there]

/-- What the columns of a table hold comes out of a file as it was written. -/
structure NoReturns (format : SheetFormat) (store : Store) (locale : String) : Prop where
  names : ∀ name ∈ header format locale, '\r' ∉ name.toList
  texts : ∀ key slot, store.get? key = some slot →
    '\r' ∉ key.toList ∧ '\r' ∉ slot.toEntry.value.toList

/-- The other locales that are read have no column in the table of a locale. -/
def OwnColumn (format : SheetFormat) (engines : Keyed Engine) (locale : String) : Prop :=
  ∀ name ∈ engines.keys, name ≠ locale → name ∉ header format locale

theorem of_mem_sortedEntries {item : String × Entry} (there : item ∈ sortedEntries store) :
    ∃ slot, store.get? item.1 = some slot ∧ item.2 = slot.toEntry := by
  obtain ⟨key, -, found⟩ := List.mem_filterMap.mp there
  obtain ⟨slot, held, rfl⟩ := Option.map_eq_some_iff.mp found
  exact ⟨slot, held, rfl⟩

/-- A name that is no column has no cell. -/
theorem get?_of_not_mem (record : Record) {name : String} (absent : name ∉ record.names) :
    record.get? name = none := by
  have nothing : record.names.zipIdx.filter (fun column => column.1 == name) = [] := by
    rw [List.filter_eq_nil_iff]
    rintro ⟨other, index⟩ there
    have inside : other ∈ record.names := List.fst_mem_of_mem_zipIdx there
    simp only [beq_iff_eq]
    rintro rfl
    exact absent inside
  rw [Record.get?, nothing]
  rfl

/-- A table without carriage returns in its columns is read from a file as it was written. -/
theorem readTable_lines (marks : DefaultMarks options.sheet)
    (distinct : Distinct options.sheet locale) (own : OwnColumn options.sheet engines locale)
    (plain : NoReturns options.sheet store locale) :
    readTable options engines file (unifyLineEnds (writeStore options.sheet store locale).toList) =
      readTable options engines file (writeStore options.sheet store locale).toList := by
  have each : ∀ item ∈ sortedEntries store, ∀ done : Imported × Report.Log,
      addRecord options engines file done (rowRecord options.sheet locale item).unified =
        addRecord options engines file done (rowRecord options.sheet locale item) := by
    intro item there done
    obtain ⟨slot, held, value⟩ := of_mem_sortedEntries there
    obtain ⟨key, text⟩ := plain.texts item.1 slot held
    refine addRecord_congr done ?_ fun engine inside => ?_
    · rw [get?_unified, key_of_rowRecord distinct, Option.map_some, unified_of_not_mem key]
    · rw [get?_unified]
      by_cases same : engine.1 = locale
      · rw [same, text_of_rowRecord distinct, Option.map_some, value, unified_of_not_mem text]
      · have absent : engine.1 ∉ (rowRecord options.sheet locale item).names :=
          own engine.1 (List.mem_map.mpr ⟨engine, inside, rfl⟩) same
        rw [get?_of_not_mem _ absent]
        rfl
  unfold readTable
  rw [marksOf_default marks]
  dsimp only [bind, Except.bind]
  rw [readRecords_lines marks plain.names, readRecords_writeStore marks, List.foldl_map,
    List.foldl_map]
  rw [List.foldl_ext _ _ _ fun done item there => each item there done]

end MessageCatalog.Sheet
