import MessageCatalog.Proofs.Basic
import MessageCatalog.Proofs.Bundle.Filled
import MessageCatalog.Proofs.Markup.TextContent
import MessageCatalog.Proofs.Sheet.Rows
import MessageCatalog.Proofs.Store.Merge
import MessageCatalog.Sheet.Import

/-!
# MessageCatalog.Proofs.Sheet.RoundTrip -- a table brings back the texts that it was written from

A table that is written for a locale and read again has a row for every key, in which the key and
the text of the locale are found under their names. A text that is in its final form, or is the text
of its final form, comes out of its cell as it is. Merging what was read into a store then gives
every key of the store that text again and leaves its files and further fields alone.
-/

namespace MessageCatalog.Sheet

open MessageCatalog.Bundle MessageCatalog.Config MessageCatalog.Markup MessageCatalog.Message
open MessageCatalog.Store

/-! ## Cells under their names -/

/-- A name that stands once among others finds the cell at its place. -/
theorem get?_of_once {before after : List String} {name : String} (cells : List String)
    (notBefore : name ∉ before) (notAfter : name ∉ after) :
    Record.get? ⟨before ++ name :: after, cells⟩ name = cells[before.length]? := by
  have none : ∀ (names : List String) (start : Nat), name ∉ names →
      (names.zipIdx start).filter (fun column => column.1 == name) = [] := by
    intro names start absent
    rw [List.filter_eq_nil_iff]
    rintro ⟨other, index⟩ there
    have inside : other ∈ names := List.fst_mem_of_mem_zipIdx there
    simp only [beq_iff_eq]
    rintro rfl
    exact absent inside
  rw [Record.get?, List.zipIdx_append, List.zipIdx_cons, List.filter_append, none _ _ notBefore,
    List.filter_cons_of_pos (by simp), none _ _ notAfter]
  simp

variable {format : SheetFormat} {locale : String}

/-- The names of a table tell its columns of keys and texts from the others. -/
structure Distinct (format : SheetFormat) (locale : String) : Prop where
  apart : locale ≠ format.keyLabel
  notExtra : locale ∉ format.extraFields
  label : format.keyLabel ∉ format.extraFields

/-- The row of an entry by the names of its table. -/
def rowRecord (format : SheetFormat) (locale : String) (item : String × Entry) : Record :=
  ⟨header format locale, entryRow format item.1 item.2⟩

theorem key_of_rowRecord (h : Distinct format locale) (item : String × Entry) :
    (rowRecord format locale item).get? format.keyLabel = some item.1 := by
  have notAfter : format.keyLabel ∉ locale :: format.extraFields := by
    rw [List.mem_cons, not_or]
    exact ⟨Ne.symm h.apart, h.label⟩
  exact get?_of_once (entryRow format item.1 item.2) List.not_mem_nil notAfter

theorem text_of_rowRecord (h : Distinct format locale) (item : String × Entry) :
    (rowRecord format locale item).get? locale = some item.2.value := by
  have notBefore : locale ∉ [format.keyLabel] := by
    rw [List.mem_singleton]
    exact h.apart
  exact get?_of_once (entryRow format item.1 item.2) notBefore h.notExtra

/-! ## The rows of a store -/

/-- The entries of a store by ascending keys. -/
def sortedEntries (store : Store) : List (String × Entry) :=
  store.sortedKeys.filterMap fun key =>
    (store.get? key).map fun slot => (key, slot.toEntry)

theorem storeRows_eq (format : SheetFormat) (store : Store) (locale : String) :
    storeRows format store locale =
      header format locale :: (sortedEntries store).map fun item =>
        entryRow format item.1 item.2 := by
  rw [storeRows, sortedEntries, List.map_filterMap]
  simp [Function.comp_def]

theorem storeRows_ne_nil (format : SheetFormat) (store : Store) (locale : String) :
    ∀ row ∈ storeRows format store locale, row ≠ [] := by
  rw [storeRows_eq]
  intro row there
  rcases List.mem_cons.mp there with rfl | there
  · exact List.cons_ne_nil _ _
  · obtain ⟨item, _, rfl⟩ := List.mem_map.mp there
    exact List.cons_ne_nil _ _

theorem keys_sortedEntries (store : Store) : (sortedEntries store).map Prod.fst = store.sortedKeys := by
  have found : ∀ keys : List String, (∀ key ∈ keys, key ∈ store.keys) →
      (keys.filterMap fun key => (store.get? key).map fun slot => (key, slot.toEntry)).map Prod.fst =
        keys := by
    intro keys inside
    induction keys with
    | nil => rfl
    | cons key rest ih =>
        rw [List.forall_mem_cons] at inside
        obtain ⟨slot, there⟩ := (store.mem_keys_iff).mp inside.1
        rw [List.filterMap_cons, there]
        simp only [Option.map_some, List.map_cons, ih inside.2]
  exact found _ fun key there => Keyed.mem_ascending.mp there

theorem nodup_sortedEntries (store : Store) : ((sortedEntries store).map Prod.fst).Nodup := by
  rw [keys_sortedEntries]
  exact Keyed.nodup_ascending.mpr store.nodup_keys

theorem mem_sortedEntries {store : Store} {key : String} {slot : Slot}
    (h : store.get? key = some slot) : (key, slot.toEntry) ∈ sortedEntries store := by
  have there : key ∈ store.sortedKeys :=
    Keyed.mem_ascending.mpr ((store.mem_keys_iff).mpr ⟨slot, h⟩)
  exact List.mem_filterMap.mpr ⟨key, there, by rw [h]; rfl⟩

/-- A table is read as its rows. -/
theorem readRecords_writeStore (h : DefaultMarks format) (store : Store) (locale : String) :
    readRecords defaultMarks (writeStore format store locale).toList =
      (sortedEntries store).map (rowRecord format locale) := by
  rw [readRecords, toList_writeStore h,
    readRows_rowChars (storeRows_ne_nil format store locale), storeRows_eq]
  have full : ((sortedEntries store).map fun item => entryRow format item.1 item.2).filter
      (fun cells => !cells.isEmpty) =
        (sortedEntries store).map fun item => entryRow format item.1 item.2 := by
    rw [List.filter_eq_self]
    intro row there
    obtain ⟨item, _, rfl⟩ := List.mem_map.mp there
    rfl
  dsimp only
  rw [full, List.map_map]
  rfl

theorem marksOf_default (h : DefaultMarks format) : marksOf format = .ok defaultMarks := by
  rw [marksOf, h.quote, h.delimiter]
  rfl

/-! ## What a cell gives -/

/-- A text of a message that is in its final form, or is the text of its final form. -/
structure Canonical (options : Options) (engine : Engine) (key value : List Char) : Prop where
  nonempty : value ≠ []
  parses : ∃ message, engine.parse value = .ok message
  clean : ∃ cleaned, Content.clean options key value false = .ok cleaned ∧
    (cleaned.content = value ∨ textContent cleaned.content = .ok value)

variable {options : Options} {engine : Engine} {key value : List Char}

/-- Sanitized markup has a text. -/
theorem textContent_sanitized {allowLink : List Char → Bool} {markup out : List Char}
    (h : sanitizeMarkup allowLink markup = .ok out) : ∃ text, textContent out = .ok text := by
  obtain ⟨nodes, _, rfl, proper, _⟩ := sanitizeMarkup_eq_ok h
  exact textContent_render proper

/-- A canonical text comes out of its cell as it is. -/
theorem readCell_canonical (h : Canonical options engine key value) :
    readCell options engine key value = .ok (some value) := by
  obtain ⟨message, parsed⟩ := h.parses
  obtain ⟨cleaned, clean, same⟩ := h.clean
  obtain ⟨markup, sanitized⟩ := clean_content clean
  obtain ⟨text, has⟩ := textContent_sanitized sanitized
  have full : cleaned.content.isEmpty = false := by
    rw [List.isEmpty_eq_false_iff]
    intro none
    rcases same with own | plain
    · exact h.nonempty (own.symm.trans none)
    · rw [none, show ([] : List Char) = escapeText [] from rfl, textContent_escapeText] at plain
      exact h.nonempty (Except.ok.inj plain).symm
  have kept : Content.keepPlain value cleaned.content = .ok value := by
    rw [Content.keepPlain, has, Except.map]
    by_cases plain : text = value
    · rw [if_pos (by simpa using plain)]
    · rw [if_neg (by simpa using plain)]
      rcases same with own | textual
      · rw [own]
      · rw [has] at textual
        exact absurd (Except.ok.inj textual) plain
  unfold readCell
  rw [clean]
  show (if cleaned.content.isEmpty then pure none else do
    let content ← (Content.keepPlain value cleaned.content).mapError markupProblem
    let _ ← (engine.parse content).mapError messageProblem
    return some content) = _
  rw [full, kept]
  show ((engine.parse value).mapError messageProblem >>= fun _ => pure (some value)) = _
  rw [parsed]
  rfl

/-! ## What the rows give -/

/-- The entries that have been read for a locale. -/
def cellsOf (locale : String) (done : Imported × Report.Log) : Keyed Entry :=
  (done.1.get? locale).getD Keyed.empty

variable {file : Option String} {record : Record} {name : String}

/-- A cell gives nothing, or one text for its key and the locale of its engine. -/
theorem cellsOf_addCell (own : String × Engine) (done : Imported × Report.Log) :
    (∀ locale, cellsOf locale (addCell options file record name done own) = cellsOf locale done) ∨
      ∃ text, ∀ locale, cellsOf locale (addCell options file record name done own) =
        if locale = own.1 then (cellsOf locale done).set name (.ofText text)
        else cellsOf locale done := by
  unfold addCell
  split
  · exact Or.inl fun _ => rfl
  split
  · exact Or.inl fun _ => rfl
  dsimp only
  split
  · exact Or.inl fun _ => rfl
  · next content _ =>
    refine Or.inr ⟨String.ofList content, fun locale => ?_⟩
    rw [cellsOf, Keyed.get?_set]
    by_cases same : locale = own.1
    · subst same
      rw [if_pos rfl, if_pos rfl]
      rfl
    · rw [if_neg same, if_neg same]
      rfl
  · exact Or.inl fun _ => rfl

/-- A cell of another locale gives nothing for a locale. -/
theorem cellsOf_addCell_other {other : String × Engine} (h : other.1 ≠ locale)
    (done : Imported × Report.Log) :
    cellsOf locale (addCell options file record name done other) = cellsOf locale done := by
  rcases cellsOf_addCell other done with same | ⟨text, set⟩
  · exact same locale
  · rw [set locale, if_neg (Ne.symm h)]

/-- A cell gives nothing for another key. -/
theorem get?_addCell_other {other : String} (h : other ≠ name) (own : String × Engine)
    (done : Imported × Report.Log) :
    (cellsOf locale (addCell options file record name done own)).get? other =
      (cellsOf locale done).get? other := by
  rcases cellsOf_addCell own done with same | ⟨text, set⟩
  · rw [same locale]
  · rw [set locale]
    split
    · rw [Keyed.get?_set, if_neg h]
    · rfl

/-- A canonical text is what its cell gives for its key. -/
theorem get?_addCell_own {text : String} (found : record.get? locale = some text)
    (canonical : Canonical options engine name.toList text.toList)
    (done : Imported × Report.Log) :
    (cellsOf locale (addCell options file record name done (locale, engine))).get? name =
      some (.ofText text) := by
  have full : text.isEmpty = false := by
    rw [Bool.eq_false_iff]
    intro none
    exact canonical.nonempty (by simpa using none)
  have read := readCell_canonical canonical
  unfold addCell
  rw [found]
  dsimp only
  rw [full, read, if_neg (by decide)]
  dsimp only
  rw [cellsOf, Keyed.get?_set, if_pos rfl, Option.getD_some, Keyed.get?_set, if_pos rfl,
    String.ofList_toList]

theorem get?_foldl_addCell_other {other : String} (h : other ≠ name)
    (engines : List (String × Engine)) (done : Imported × Report.Log) :
    (cellsOf locale (engines.foldl (addCell options file record name) done)).get? other =
      (cellsOf locale done).get? other := by
  induction engines generalizing done with
  | nil => rfl
  | cons own rest ih => rw [List.foldl_cons, ih, get?_addCell_other h]

/-- Engines of other locales give nothing for a locale. -/
theorem cellsOf_foldl_addCell {engines : List (String × Engine)}
    (h : ∀ own ∈ engines, own.1 ≠ locale) (done : Imported × Report.Log) :
    cellsOf locale (engines.foldl (addCell options file record name) done) =
      cellsOf locale done := by
  induction engines generalizing done with
  | nil => rfl
  | cons own rest ih =>
      rw [List.forall_mem_cons] at h
      rw [List.foldl_cons, ih h.2, cellsOf_addCell_other h.1]

variable {engines : Keyed Engine} {item : String × Entry}

/-- A row gives nothing for another key. -/
theorem get?_addRecord_other {other : String} (distinct : Distinct options.sheet locale)
    (h : other ≠ item.1) (done : Imported × Report.Log) :
    (cellsOf locale (addRecord options engines file done
      (rowRecord options.sheet locale item))).get? other = (cellsOf locale done).get? other := by
  unfold addRecord
  rw [key_of_rowRecord distinct]
  dsimp only
  split
  · rfl
  · exact get?_foldl_addCell_other h engines.pairs done

/-- A row gives its text for its key, when the text is canonical. -/
theorem get?_addRecord_own (distinct : Distinct options.sheet locale)
    (knows : engines.get? locale = some engine) (named : item.1 ≠ "")
    (canonical : Canonical options engine item.1.toList item.2.value.toList)
    (done : Imported × Report.Log) :
    (cellsOf locale (addRecord options engines file done
      (rowRecord options.sheet locale item))).get? item.1 = some (.ofText item.2.value) := by
  have full : item.1.isEmpty = false := by
    rw [Bool.eq_false_iff]
    intro none
    exact named (by simpa using none)
  obtain ⟨before, after, split⟩ := List.append_of_mem ((engines.get?_eq_some_iff).mp knows)
  -- the engines behind the one of the locale have other names
  have others : ∀ own ∈ after, own.1 ≠ locale := by
    intro own there same
    have names := engines.distinct
    rw [split, List.map_append, List.map_cons, List.nodup_append, List.nodup_cons] at names
    exact names.2.1.1 (List.mem_map.mpr ⟨own, there, same⟩)
  unfold addRecord
  rw [key_of_rowRecord distinct]
  dsimp only
  rw [full, if_neg (by decide), split, List.foldl_append, List.foldl_cons,
    cellsOf_foldl_addCell others, get?_addCell_own (text_of_rowRecord distinct item) canonical]

/-- The rows of a table give the text of each of their keys that is canonical. -/
theorem get?_foldl_addRecord {items : List (String × Entry)}
    (distinct : Distinct options.sheet locale) (names : (items.map Prod.fst).Nodup)
    (knows : engines.get? locale = some engine) (there : item ∈ items) (named : item.1 ≠ "")
    (canonical : Canonical options engine item.1.toList item.2.value.toList)
    (done : Imported × Report.Log) :
    (cellsOf locale ((items.map (rowRecord options.sheet locale)).foldl
      (addRecord options engines file) done)).get? item.1 = some (.ofText item.2.value) := by
  obtain ⟨before, after, rfl⟩ := List.append_of_mem there
  rw [List.map_append, List.map_cons, List.nodup_append, List.nodup_cons] at names
  have later : ∀ (items : List (String × Entry)), item.1 ∉ items.map Prod.fst →
      ∀ done, (cellsOf locale ((items.map (rowRecord options.sheet locale)).foldl
        (addRecord options engines file) done)).get? item.1 =
          (cellsOf locale done).get? item.1 := by
    intro items
    induction items with
    | nil => exact fun _ _ => rfl
    | cons other rest ih =>
        intro absent done
        rw [List.map_cons, List.mem_cons, not_or] at absent
        rw [List.map_cons, List.foldl_cons, ih absent.2, get?_addRecord_other distinct absent.1]
  rw [List.map_append, List.foldl_append, List.map_cons, List.foldl_cons, later after names.2.1.1,
    get?_addRecord_own distinct knows named canonical]

/-! ## The round trip -/

/-- A store with the texts that were read for a locale. -/
def updated (target : Store) (imported : Imported) (locale : String) : Store :=
  extendAll target ((imported.get? locale).getD Keyed.empty).pairs true

theorem get?_updated (target : Store) (imported : Imported) (locale key : String) :
    (updated target imported locale).get? key = (target.get? key).map fun slot =>
      match ((imported.get? locale).getD Keyed.empty).get? key with
      | some incoming => .entry (slot.toEntry.absorb incoming true)
      | none => slot :=
  get?_extendAll_update (Keyed.nodup_keys _) target key

/-- A text that comes without files changes a text only. -/
theorem absorb_ofText (entry : Entry) (text : String) :
    (entry.absorb (.ofText text) true).value = text ∧
      (entry.absorb (.ofText text) true).extra = entry.extra ∧
      ∀ name, name ∈ (entry.absorb (.ofText text) true).files ↔ name ∈ entry.files := by
  refine ⟨rfl, rfl, fun name => ?_⟩
  rw [Entry.mem_files_absorb]
  simp [Entry.ofText]

/-- What has been read are texts without files. -/
def OnlyTexts (done : Imported × Report.Log) : Prop :=
  ∀ locale key entry, (cellsOf locale done).get? key = some entry → ∃ text, entry = .ofText text

theorem onlyTexts_addCell {done : Imported × Report.Log} (h : OnlyTexts done)
    (own : String × Engine) : OnlyTexts (addCell options file record name done own) := by
  intro locale key entry there
  rcases cellsOf_addCell own done with same | ⟨text, set⟩
  · rw [same locale] at there
    exact h locale key entry there
  · rw [set locale] at there
    split at there
    · rw [Keyed.get?_set] at there
      split at there
      · exact ⟨text, (Option.some.inj there).symm⟩
      · exact h locale key entry there
    · exact h locale key entry there

theorem onlyTexts_addRecord {done : Imported × Report.Log} (h : OnlyTexts done)
    (record : Record) : OnlyTexts (addRecord options engines file done record) := by
  unfold addRecord
  split
  · exact h
  split
  · exact h
  · exact List.foldlRecOn (motive := OnlyTexts) engines.pairs _ h
      fun done texts own _ => onlyTexts_addCell texts own

theorem onlyTexts_foldl_addRecord (records : List Record) {done : Imported × Report.Log}
    (h : OnlyTexts done) : OnlyTexts (records.foldl (addRecord options engines file) done) :=
  List.foldlRecOn (motive := OnlyTexts) records _ h
    fun _ texts record _ => onlyTexts_addRecord texts record

/-- A table that is written is read row by row. -/
theorem readTable_writeStore (marks : DefaultMarks options.sheet) (engines : Keyed Engine)
    (file : Option String) (store : Store) (locale : String) :
    ∃ log, readTable options engines file (writeStore options.sheet store locale).toList =
      .ok ((((sortedEntries store).map (rowRecord options.sheet locale)).foldl
        (addRecord options engines file) (Keyed.empty, [])).1, log) := by
  unfold readTable
  rw [marksOf_default marks]
  dsimp only [bind, Except.bind]
  rw [readRecords_writeStore marks]
  exact ⟨_, rfl⟩

/-- A table that is written for a locale can be read, and merging what it holds into a store adds
and removes no key, leaves the files and the further fields of every key alone, and gives a key its
own text again when that is canonical. -/
theorem updated_writeStore (marks : DefaultMarks options.sheet)
    (distinct : Distinct options.sheet locale) (knows : engines.get? locale = some engine)
    {store : Store} (named : "" ∉ store.keys) (file : Option String) :
    ∃ imported log, readTable options engines file
        (writeStore options.sheet store locale).toList = .ok (imported, log) ∧
      ∀ target : Store, (∀ key, key ∈ (updated target imported locale).keys ↔ key ∈ target.keys) ∧
        ∀ key before after, target.get? key = some before →
          (updated target imported locale).get? key = some after →
          after.toEntry.extra = before.toEntry.extra ∧
          (∀ name, name ∈ after.toEntry.files ↔ name ∈ before.toEntry.files) ∧
          ∀ own, store.get? key = some own →
            Canonical options engine key.toList own.toEntry.value.toList →
            after.toEntry.value = own.toEntry.value := by
  have texts : OnlyTexts (((sortedEntries store).map (rowRecord options.sheet locale)).foldl
      (addRecord options engines file) (Keyed.empty, [])) :=
    onlyTexts_foldl_addRecord _ fun locale key entry there => by cases there
  have given : ∀ key own, store.get? key = some own →
      Canonical options engine key.toList own.toEntry.value.toList →
      (cellsOf locale (((sortedEntries store).map (rowRecord options.sheet locale)).foldl
        (addRecord options engines file) (Keyed.empty, []))).get? key =
          some (.ofText own.toEntry.value) := by
    intro key own there canonical
    have notEmpty : key ≠ "" := fun same =>
      named (same ▸ (store.mem_keys_iff).mpr ⟨own, there⟩)
    exact get?_foldl_addRecord distinct (nodup_sortedEntries store) knows
      (mem_sortedEntries there) notEmpty canonical _
  obtain ⟨log, read⟩ := readTable_writeStore marks engines file store locale
  generalize ((sortedEntries store).map (rowRecord options.sheet locale)).foldl
    (addRecord options engines file) (Keyed.empty, []) = done at texts given read
  refine ⟨done.1, log, read, fun target => ⟨fun key => ?_, fun key before after was now => ?_⟩⟩
  · rw [Keyed.mem_keys_iff, Keyed.mem_keys_iff, ← Option.isSome_iff_exists,
      ← Option.isSome_iff_exists, get?_updated, Option.isSome_map]
  · have cell : ((done.1.get? locale).getD Keyed.empty).get? key =
        (cellsOf locale done).get? key := rfl
    rw [get?_updated, was, Option.map_some, cell] at now
    cases found : (cellsOf locale done).get? key with
    | none =>
        rw [found] at now
        cases now
        refine ⟨rfl, fun name => Iff.rfl, fun own there canonical => ?_⟩
        rw [given key own there canonical] at found
        cases found
    | some entry =>
        obtain ⟨text, rfl⟩ := texts locale key entry found
        rw [found] at now
        cases now
        obtain ⟨value, extra, files⟩ := absorb_ofText before.toEntry text
        refine ⟨extra, files, fun own there canonical => ?_⟩
        rw [given key own there canonical] at found
        cases found
        rfl

/-! ## One key -/

/-- An engine that knows no category but the one that every message has. -/
def plainEngine : Engine := ⟨"de", "de", ⟨[], []⟩⟩

/-- The engine under its locale. -/
def plainEngines : Keyed Engine := Keyed.ofList [("de", plainEngine)]

/-- A store of one key. -/
def oneKey (key value : String) : Store := Keyed.ofList [(key, .entry (.ofText value))]

theorem canonical_of_content {key value : String} (nonempty : value.toList ≠ [])
    (clean : (Content.clean options key.toList value.toList false).map Content.Cleaned.content =
      .ok value.toList)
    (parses : (engine.parse value.toList).isOk = true) :
    Canonical options engine key.toList value.toList where
  nonempty := nonempty
  parses := by
    cases parsed : engine.parse value.toList with
    | error e =>
        rw [parsed] at parses
        cases parses
    | ok message => exact ⟨message, rfl⟩
  clean := by
    cases cleaned : Content.clean options key.toList value.toList false with
    | error e =>
        rw [cleaned] at clean
        cases clean
    | ok result =>
        rw [cleaned] at clean
        exact ⟨result, rfl, Or.inl (Except.ok.inj clean)⟩

/-- A key with quotes and a comma gets its text with a tag back. -/
theorem updated_quotedKey :
    ∃ imported log, readTable pagesOnly plainEngines none
        (writeStore pagesOnly.sheet (oneKey "Say \"hi\", you" "Sag \"<b>du</b>\"") "de").toList =
          .ok (imported, log) ∧
      ∃ after, (updated (oneKey "Say \"hi\", you" "") imported "de").get? "Say \"hi\", you" =
          some after ∧
        after.toEntry.value = "Sag \"<b>du</b>\"" := by
  have marks : DefaultMarks pagesOnly.sheet := ⟨rfl, rfl, rfl⟩
  have distinct : Distinct pagesOnly.sheet "de" := ⟨by decide, by decide, by decide⟩
  have knows : plainEngines.get? "de" = some plainEngine := rfl
  have named : "" ∉ (oneKey "Say \"hi\", you" "Sag \"<b>du</b>\"").keys := by decide
  have canonical : Canonical pagesOnly plainEngine "Say \"hi\", you".toList
      "Sag \"<b>du</b>\"".toList :=
    canonical_of_content (by decide) (by decide +kernel) (by decide +kernel)
  obtain ⟨imported, log, read, all⟩ := updated_writeStore marks distinct knows named none
  obtain ⟨keys, values⟩ := all (oneKey "Say \"hi\", you" "")
  have there : "Say \"hi\", you" ∈ (updated (oneKey "Say \"hi\", you" "") imported "de").keys :=
    (keys _).mpr (by decide)
  obtain ⟨after, now⟩ := (Keyed.mem_keys_iff _).mp there
  exact ⟨imported, log, read, after, now, (values _ _ after rfl now).2.2 _ rfl canonical⟩

/-- The options with a column of further fields that has the name of the column of keys. -/
def labelTwice : Options :=
  { pagesOnly with sheet := { pagesOnly.sheet with extraFields := ["ID"] } }

/-- Where a further field has the name of the column of keys, no text comes back. -/
theorem updated_labelTwice :
    ¬∀ (options : Options) (locale : String) (engines : Keyed Engine) (engine : Engine)
        (store : Store), DefaultMarks options.sheet → options.keyMinifier = none →
      locale ≠ options.sheet.keyLabel → locale ∉ options.sheet.extraFields →
      engines.get? locale = some engine → "" ∉ store.keys →
      ∃ imported log, readTable options engines none
          (writeStore options.sheet store locale).toList = .ok (imported, log) ∧
        ∀ target : Store, (∀ key, key ∈ target.keys ↔ key ∈ store.keys) →
          ∀ key own after, store.get? key = some own →
            Canonical options engine key.toList own.toEntry.value.toList →
            (updated target imported locale).get? key = some after →
            after.toEntry.value = own.toEntry.value := by
  intro restores
  have none' : ((readTable labelTwice plainEngines none
      (writeStore labelTwice.sheet (oneKey "Save" "Sichern") "de").toList).toOption.map fun read =>
        (cellsOf "de" (read.1, [])).keys) = some [] := by decide +kernel
  have canonical : Canonical labelTwice plainEngine "Save".toList "Sichern".toList :=
    canonical_of_content (by decide) (by decide +kernel) (by decide +kernel)
  obtain ⟨imported, log, read, all⟩ := restores labelTwice "de" plainEngines plainEngine
    (oneKey "Save" "Sichern") ⟨rfl, rfl, rfl⟩ rfl (by decide) (by decide) rfl (by decide)
  rw [read] at none'
  have nothing : ((imported.get? "de").getD Keyed.empty).get? "Save" = none := by
    rw [Keyed.get?_eq_none_iff]
    rw [show ((imported.get? "de").getD Keyed.empty).keys = [] from Option.some.inj none']
    exact List.not_mem_nil
  have kept : (updated (oneKey "Save" "") imported "de").get? "Save" =
      some (.entry (.ofText "")) := by
    rw [get?_updated, nothing]
    rfl
  have same := all (oneKey "Save" "") (fun key => Iff.rfl) "Save" _ _ rfl canonical kept
  exact absurd same (by decide)

end MessageCatalog.Sheet
