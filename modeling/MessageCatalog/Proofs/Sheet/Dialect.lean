import Mathlib
import MessageCatalog.Proofs.Sheet.RoundTrip

/-!
# MessageCatalog.Proofs.Sheet.Dialect -- tables with other marks

A table is written with any quote, delimiter and line end, but it is always the double quote that is
written twice inside a field. So a reader with the marks of the table gets its rows back if the
double quote is the quote of the table, or if no field holds a quote of either kind. Otherwise it
does not: the first field with such a quote is read as another text, and nothing that stands behind
it can mend that.
-/

namespace MessageCatalog.Sheet

open MessageCatalog.Config

variable {marks : Marks}

namespace Reading

/-! ## Fields that have ended -/

/-- The fields that have ended so far, row by row. -/
def cells (r : Reading) : List String := r.rows.reverse.flatten ++ r.fields.reverse

/-- At the start of a row no field of the row has ended. -/
def Settled (r : Reading) : Prop := ∀ afterReturn, r.place = .rowStart afterReturn → r.fields = []

theorem cells_add (r : Reading) (c : Char) (place : Place) : (r.add c place).cells = r.cells := rfl

theorem cells_endField (r : Reading) (place : Place) :
    (r.endField place).cells = r.cells ++ [String.ofList r.field.reverse] := by
  simp [cells, endField]

theorem cells_endRow (r : Reading) (afterReturn : Bool) : (r.endRow afterReturn).cells = r.cells := by
  simp [cells, endRow]

theorem settled_of_place {r : Reading} (h : ∀ afterReturn, r.place ≠ .rowStart afterReturn) :
    r.Settled := fun afterReturn same => absurd same (h afterReturn)

theorem settled_endField (r : Reading) : (r.endField .fieldStart).Settled := settled_of_place nofun

theorem settled_endRow (r : Reading) (afterReturn : Bool) : (r.endRow afterReturn).Settled :=
  fun _ _ => rfl

theorem stepFieldStart_cells (r : Reading) (c : Char) :
    (r.stepFieldStart marks c).Settled ∧ r.cells <+: (r.stepFieldStart marks c).cells := by
  unfold stepFieldStart
  split
  · refine ⟨settled_endRow _ _, ?_⟩
    rw [cells_endRow, cells_endField]
    exact List.prefix_append _ _
  split
  · exact ⟨settled_of_place nofun, List.prefix_refl _⟩
  split
  · refine ⟨settled_endField r, ?_⟩
    rw [cells_endField]
    exact List.prefix_append _ _
  · exact ⟨settled_of_place nofun, List.prefix_refl _⟩

/-- A field that has ended stays as it is. -/
theorem step_cells {r : Reading} (h : r.Settled) (c : Char) :
    (r.step marks c).Settled ∧ r.cells <+: (r.step marks c).cells := by
  have ended : ∀ place, r.cells <+: (r.endField place).cells := by
    intro place
    rw [cells_endField]
    exact List.prefix_append _ _
  unfold step
  split
  · next afterReturn same =>
      split
      · exact ⟨fun _ _ => h afterReturn same, List.prefix_refl _⟩
      split
      · have kept : (r.endRow (c == '\r')).cells = r.cells := cells_endRow r _
        exact ⟨settled_endRow _ _, ⟨[], (List.append_nil _).trans kept.symm⟩⟩
      · exact stepFieldStart_cells r c
  · exact stepFieldStart_cells r c
  · split
    · refine ⟨settled_endRow _ _, ?_⟩
      rw [cells_endRow]
      exact ended _
    split
    · exact ⟨settled_endField r, ended _⟩
    · exact ⟨settled_of_place nofun, List.prefix_refl _⟩
  · split <;> exact ⟨settled_of_place nofun, List.prefix_refl _⟩
  · split
    · exact ⟨settled_of_place nofun, List.prefix_refl _⟩
    split
    · dsimp only
      split
      · refine ⟨settled_endRow _ _, ?_⟩
        rw [cells_endRow, cells_endField]
        exact (ended _).trans (List.prefix_append _ _)
      · exact ⟨settled_endField r, ended _⟩
    split
    · refine ⟨settled_endRow _ _, ?_⟩
      rw [cells_endRow]
      exact ended _
    · exact ⟨settled_of_place nofun, List.prefix_refl _⟩

theorem cells_finish {r : Reading} (h : r.Settled) : r.cells <+: r.finish.flatten := by
  unfold finish
  split
  · next afterReturn same =>
      have whole : r.cells = r.rows.reverse.flatten := by
        rw [cells, h afterReturn same, List.reverse_nil, List.append_nil]
      exact ⟨[], (List.append_nil _).trans whole⟩
  · simp [cells, endField, endRow]

/-- The fields that have ended are the first ones of the table. -/
theorem cells_foldl {r : Reading} (h : r.Settled) (text : List Char) :
    r.cells <+: (text.foldl (step marks) r).finish.flatten := by
  induction text generalizing r with
  | nil => exact cells_finish h
  | cons c rest ih =>
      obtain ⟨settled, front⟩ : (r.step marks c).Settled ∧ r.cells <+: (r.step marks c).cells :=
        step_cells h c
      exact front.trans (ih settled)

/-! ## The field that is being read -/

/-- What is added to a field up to its end, from a place inside it on. -/
def restOfField (marks : Marks) : Place → List Char → List Char
  | _, [] => []
  | .inQuotes, c :: rest =>
    if c = marks.quote then restOfField marks .afterQuote rest
    else c :: restOfField marks .inQuotes rest
  | .afterQuote, c :: rest =>
    if c = marks.quote then c :: restOfField marks .inQuotes rest
    else if c = marks.delimiter ∨ isLineEnd c = true then []
    else c :: restOfField marks .inField rest
  | .inField, c :: rest =>
    if c = marks.delimiter ∨ isLineEnd c = true then []
    else c :: restOfField marks .inField rest
  | _, _ :: _ => []

theorem restOfField_inQuotes (c : Char) (rest : List Char) :
    restOfField marks .inQuotes (c :: rest) =
      if c = marks.quote then restOfField marks .afterQuote rest
      else c :: restOfField marks .inQuotes rest := rfl

theorem restOfField_afterQuote (c : Char) (rest : List Char) :
    restOfField marks .afterQuote (c :: rest) =
      if c = marks.quote then c :: restOfField marks .inQuotes rest
      else if c = marks.delimiter ∨ isLineEnd c = true then []
      else c :: restOfField marks .inField rest := rfl

theorem restOfField_inField (c : Char) (rest : List Char) :
    restOfField marks .inField (c :: rest) =
      if c = marks.delimiter ∨ isLineEnd c = true then []
      else c :: restOfField marks .inField rest := rfl

/-- A field under way ends as what it is so far and what is still added to it. -/
theorem cell_foldl (apart : marks.Apart) {r : Reading}
    (inside : r.place = .inQuotes ∨ r.place = .afterQuote ∨ r.place = .inField)
    (text : List Char) :
    r.cells ++ [String.ofList (r.field.reverse ++ restOfField marks r.place text)] <+:
      (text.foldl (step marks) r).finish.flatten := by
  induction text generalizing r with
  | nil =>
      obtain ⟨rows, fields, field, place⟩ := r
      rcases inside with same | same | same <;> cases same <;>
        simp [cells, finish, endField, endRow, restOfField]
  | cons c rest ih =>
      -- where the field ends, it is among the fields that have ended
      have ended : ∀ read : Reading, read.Settled → read.cells = (r.endField .fieldStart).cells →
          r.cells ++ [String.ofList (r.field.reverse ++ [])] <+:
            (rest.foldl (step marks) read).finish.flatten := by
        intro read settled same
        rw [List.append_nil, ← cells_endField r .fieldStart, ← same]
        exact cells_foldl settled rest
      have grows : ∀ next : Place, next = .inQuotes ∨ next = .afterQuote ∨ next = .inField →
          r.cells ++ [String.ofList (r.field.reverse ++ c :: restOfField marks next rest)] <+:
            (rest.foldl (step marks) (r.add c next)).finish.flatten := by
        intro next inside
        have later := ih (r := r.add c next) inside
        rwa [cells_add, add, List.reverse_cons, List.append_assoc] at later
      rw [List.foldl_cons]
      rcases inside with same | same | same
      · rw [same, restOfField_inQuotes]
        simp only [step, same, beq_iff_eq]
        split
        · exact ih (r := { r with place := .afterQuote }) (Or.inr (Or.inl rfl))
        · exact grows .inQuotes (Or.inl rfl)
      · rw [same, restOfField_afterQuote]
        simp only [step, same, beq_iff_eq]
        split
        · exact grows .inQuotes (Or.inl rfl)
        by_cases delimits : c = marks.delimiter
        · have none : ¬isLineEnd c = true := by simp [delimits, apart.delimiter]
          rw [if_pos delimits, if_neg none, if_pos (Or.inl delimits)]
          exact ended _ (settled_endField r) rfl
        by_cases lineEnd : isLineEnd c = true
        · rw [if_neg delimits, if_pos lineEnd, if_pos (Or.inr lineEnd)]
          exact ended _ (settled_endRow _ _) (cells_endRow _ _)
        · rw [if_neg delimits, if_neg lineEnd, if_neg (not_or.mpr ⟨delimits, lineEnd⟩)]
          exact grows .inField (Or.inr (Or.inr rfl))
      · rw [same, restOfField_inField]
        simp only [step, same, beq_iff_eq]
        by_cases lineEnd : isLineEnd c = true
        · rw [if_pos lineEnd, if_pos (Or.inr lineEnd)]
          exact ended _ (settled_endRow _ _) (cells_endRow _ _)
        by_cases delimits : c = marks.delimiter
        · rw [if_neg lineEnd, if_pos delimits, if_pos (Or.inl delimits)]
          exact ended _ (settled_endField r) rfl
        · rw [if_neg delimits, if_neg lineEnd, if_neg (not_or.mpr ⟨delimits, lineEnd⟩)]
          exact grows .inField (Or.inr (Or.inr rfl))

end Reading

/-! ## Fields with quotes inside -/

/-- What a field is read as, between its first quote and what stands behind its last. -/
def readBack (marks : Marks) (chars behind : List Char) : List Char :=
  Reading.restOfField marks .inQuotes (chars.flatMap doubled ++ marks.quote :: behind)

section Inside

open Reading

variable {behind : List Char} (single : marks.quote ≠ '"')
  (ends : ∃ x more, behind = x :: more ∧ x ≠ marks.quote ∧
    (x = marks.delimiter ∨ isLineEnd x = true))

include ends in
theorem readBack_nil : readBack marks [] behind = [] := by
  obtain ⟨x, more, rfl, other, stops⟩ := ends
  simp [readBack, restOfField_inQuotes, restOfField_afterQuote, other, stops]

theorem readBack_plain {c : Char} (quote : c ≠ marks.quote) (double : c ≠ '"') (rest : List Char) :
    readBack marks (c :: rest) behind = c :: readBack marks rest behind := by
  simp [readBack, doubled, double, restOfField_inQuotes, quote]

include single in
/-- A double quote inside other quotes is read as it is written, which is twice. -/
theorem readBack_double (rest : List Char) :
    readBack marks ('"' :: rest) behind = '"' :: '"' :: readBack marks rest behind := by
  simp [readBack, doubled, restOfField_inQuotes, Ne.symm single]

include single in
/-- Two quotes are read as one. -/
theorem readBack_quotes (rest : List Char) :
    readBack marks (marks.quote :: marks.quote :: rest) behind =
      marks.quote :: readBack marks rest behind := by
  simp [readBack, doubled, restOfField_inQuotes, restOfField_afterQuote, single]

include single ends in
/-- A quote at the end of a field is read with the closing one, and what ends the field becomes part
of it. -/
theorem readBack_lastQuote :
    ∃ x more, x ≠ marks.quote ∧ readBack marks [marks.quote] behind = marks.quote :: x :: more := by
  obtain ⟨x, more, rfl, other, stops⟩ := ends
  exact ⟨x, restOfField marks .inQuotes more, other,
    by simp [readBack, doubled, restOfField_inQuotes, restOfField_afterQuote, single, other]⟩

include single in
/-- A quote in front of another character ends the quoted part of a field. -/
theorem readBack_quote {c : Char} (other : c ≠ marks.quote) (rest : List Char) :
    (readBack marks (marks.quote :: c :: rest) behind).head? ≠ some marks.quote := by
  by_cases double : c = '"'
  · simp only [readBack, List.flatMap_cons, doubled, if_neg single, double, if_true,
      List.cons_append, List.nil_append, restOfField_inQuotes, restOfField_afterQuote,
      if_neg (Ne.symm single)]
    split <;> simp [Ne.symm single]
  · simp only [readBack, List.flatMap_cons, doubled, if_neg single, if_neg double,
      List.cons_append, List.nil_append, restOfField_inQuotes, restOfField_afterQuote, if_true,
      if_neg other]
    split <;> simp [other]

include single in
theorem head?_readBack_other {c : Char} (other : c ≠ marks.quote) (rest : List Char) :
    (readBack marks (c :: rest) behind).head? ≠ some marks.quote := by
  by_cases double : c = '"'
  · rw [double, readBack_double single]
    exact fun same => single (Option.some.inj same).symm
  · rw [readBack_plain other double]
    exact fun same => other (Option.some.inj same)

theorem replicate_append_cons (n : Nat) (c : Char) (rest : List Char) :
    List.replicate n c ++ c :: rest = List.replicate (n + 1) c ++ rest := by
  rw [List.replicate_succ', List.append_assoc, List.singleton_append]

include single ends in
/-- Quotes in front of a field are not made up for by what it is read as. -/
theorem readBack_ne_quotes (n : Nat) (chars : List Char)
    (some' : 0 < n ∨ chars.head? = some marks.quote) :
    readBack marks chars behind ≠ List.replicate n marks.quote ++ chars := by
  intro same
  -- both sides start with a quote, on the right one that is in front or the first one of the field
  have front : (List.replicate n marks.quote ++ chars).head? = some marks.quote := by
    rcases some' with more | first
    · obtain ⟨m, rfl⟩ := Nat.exists_eq_add_one.mpr more
      rfl
    · obtain ⟨rest, rfl⟩ := List.head?_eq_some_iff.mp first
      rw [replicate_append_cons]
      rfl
  match chars with
  | [] =>
      rw [readBack_nil ends] at same
      rw [← same] at front
      cases front
  | [c] =>
      by_cases quote : c = marks.quote
      · obtain ⟨x, more, other, read⟩ := readBack_lastQuote single ends
        rw [quote, read, replicate_append_cons, List.append_nil] at same
        cases n with
        | zero => cases same
        | succ n => exact other (List.cons.inj (List.cons.inj same).2).1
      · rw [← same] at front
        exact head?_readBack_other single quote [] front
  | c :: d :: rest =>
      by_cases quote : c = marks.quote
      · by_cases again : d = marks.quote
        · rw [quote, again, readBack_quotes single, replicate_append_cons,
            replicate_append_cons] at same
          exact readBack_ne_quotes (n + 1) rest (Or.inl n.succ_pos) (List.cons.inj same).2
        · rw [← same, quote] at front
          exact readBack_quote single again rest front
      · rw [← same] at front
        exact head?_readBack_other single quote (d :: rest) front
termination_by chars.length

include single in
/-- Double quotes in front of what a field is read as are not made up for by the field. -/
theorem double_readBack_ne (n : Nat) (chars : List Char) :
    List.replicate (n + 1) '"' ++ readBack marks chars behind ≠ chars := by
  induction chars generalizing n with
  | nil => simp [List.replicate_succ]
  | cons c rest ih =>
      intro same
      have first : '"' = c := (List.cons.inj same).1
      rw [← first, readBack_double single] at same
      have tails : List.replicate n '"' ++ '"' :: '"' :: readBack marks rest behind = rest :=
        (List.cons.inj same).2
      rw [replicate_append_cons, replicate_append_cons] at tails
      exact ih (n + 1) tails

include single ends in
/-- Only a field without quotes of either kind is read as it is. -/
theorem no_quotes_of_readBack {chars : List Char} (same : readBack marks chars behind = chars) :
    marks.quote ∉ chars ∧ '"' ∉ chars := by
  induction chars with
  | nil => exact ⟨List.not_mem_nil, List.not_mem_nil⟩
  | cons c rest ih =>
      by_cases quote : c = marks.quote
      · refine absurd same (readBack_ne_quotes single ends 0 (c :: rest) (Or.inr ?_))
        rw [quote]
        rfl
      by_cases double : c = '"'
      · rw [double, readBack_double single] at same
        exact absurd (List.cons.inj same).2 (double_readBack_ne single 0 rest)
      · rw [readBack_plain quote double] at same
        obtain ⟨own, others⟩ := ih (List.cons.inj same).2
        exact ⟨by simp [own, Ne.symm quote], by simp [others, Ne.symm double]⟩

end Inside

/-! ## Tables -/

/-- Where not all of a list have a property, there is a first one without it. -/
theorem exists_first {α : Type} {holds : α → Prop} {all : List α} (h : ¬∀ x ∈ all, holds x) :
    ∃ front x rest, all = front ++ x :: rest ∧ (∀ y ∈ front, holds y) ∧ ¬holds x := by
  induction all with
  | nil => exact absurd nofun h
  | cons first others ih =>
      by_cases own : holds first
      · have later : ¬∀ x ∈ others, holds x :=
          fun all => h (List.forall_mem_cons.mpr ⟨own, all⟩)
        obtain ⟨front, x, rest, rfl, before, none⟩ := ih later
        exact ⟨first :: front, x, rest, rfl, List.forall_mem_cons.mpr ⟨own, before⟩, none⟩
      · exact ⟨[], first, others, rfl, nofun, own⟩

/-- Behind a field stands a delimiter or the end of its row. -/
theorem cells_behind (apart : marks.Apart) {lineEnd : List Char}
    (ends : lineEnd = ['\r', '\n'] ∨ lineEnd = ['\n']) (text : String) (rest : List String)
    (others : List Char) :
    ∃ behind, marks.cells (text :: rest) ++ lineEnd ++ others = marks.field text ++ behind ∧
      ∃ x more, behind = x :: more ∧ x ≠ marks.quote ∧
        (x = marks.delimiter ∨ Reading.isLineEnd x = true) := by
  have other : ∀ {c : Char}, Reading.isLineEnd c = true → c ≠ marks.quote := by
    rintro c isEnd rfl
    rw [apart.quote] at isEnd
    cases isEnd
  cases rest with
  | nil =>
      refine ⟨lineEnd ++ others, ?_, ?_⟩
      · rw [Marks.cells_singleton, List.append_assoc]
      · rcases ends with rfl | rfl
        · exact ⟨'\r', '\n' :: others, rfl, other rfl, Or.inr rfl⟩
        · exact ⟨'\n', others, rfl, other rfl, Or.inr rfl⟩
  | cons next rest =>
      refine ⟨marks.delimiter :: (marks.cells (next :: rest) ++ lineEnd ++ others), ?_, _, _, rfl,
        Ne.symm apart.other, Or.inl rfl⟩
      rw [Marks.cells_cons text (List.cons_ne_nil _ _)]
      simp only [List.append_assoc, List.cons_append]

/-- Rows are read as they were written just when the marks keep every field of them. -/
theorem readRows_cells_iff (apart : marks.Apart) {lineEnd : List Char}
    (ends : lineEnd = ['\r', '\n'] ∨ lineEnd = ['\n']) {rows : List (List String)}
    (some : ∀ row ∈ rows, row ≠ []) :
    readRows marks (rows.flatMap fun row => marks.cells row ++ lineEnd) = rows ↔
      ∀ row ∈ rows, ∀ text ∈ row, marks.Keeps text.toList := by
  refine ⟨fun read => ?_, readRows_cells apart ends some⟩
  by_contra broken
  -- the first field that is not kept, with the rows and the fields in front of it
  obtain ⟨good, row, others, rfl, before, notKept⟩ := exists_first broken
  obtain ⟨front, text, rest, rfl, kept, lost⟩ := exists_first notKept
  obtain ⟨behind, written, next⟩ := cells_behind apart ends text rest
    (others.flatMap fun row => marks.cells row ++ lineEnd)
  have table : (good ++ (front ++ text :: rest) :: others).flatMap
      (fun row => marks.cells row ++ lineEnd) =
        good.flatMap (fun row => marks.cells row ++ lineEnd) ++
          (front.flatMap (fun text => marks.field text ++ [marks.delimiter]) ++
            marks.quote :: (text.toList.flatMap doubled ++ marks.quote :: behind)) := by
    rw [List.flatMap_append, List.flatMap_cons, Marks.cells_append]
    rw [List.append_assoc, List.append_assoc, ← List.append_assoc (marks.cells _), written,
      Marks.field]
    simp only [List.append_assoc, List.cons_append, List.nil_append]
  have someGood : ∀ row ∈ good, row ≠ [] := fun row there =>
    some row (List.mem_append_left _ there)
  obtain ⟨start, starts, rowsSoFar, fieldsSoFar, reached⟩ := Reading.foldl_fields apart
    (r := ⟨good.reverse ++ [], [], [], .rowStart false⟩) ⟨rfl, Or.inr ⟨false, rfl⟩⟩ kept
  have cell := Reading.cell_foldl apart (r := { start with place := .inQuotes }) (Or.inl rfl)
    (text.toList.flatMap doubled ++ marks.quote :: behind)
  rw [readRows, table, List.foldl_append, Reading.start,
    Reading.foldl_rows apart ends someGood before, List.foldl_append, reached, List.foldl_cons,
    Reading.step_opening apart starts] at read
  have sofar : ({ start with place := .inQuotes } : Reading).cells = good.flatten ++ front := by
    rw [Reading.cells, rowsSoFar, fieldsSoFar]
    simp
  have same : readBack marks text.toList behind = text.toList := by
    rw [read, sofar, starts.1] at cell
    simp only [List.flatten_append, List.flatten_cons, List.append_assoc, List.cons_append,
      List.prefix_append_right_inj, List.nil_append, List.reverse_nil] at cell
    have chars := congrArg String.toList (List.cons_prefix_cons.mp cell).1
    rwa [String.toList_ofList] at chars
  have single : marks.quote ≠ '"' := fun quote => lost (Or.inl quote)
  exact lost (Or.inr (no_quotes_of_readBack single next same))

variable {format : SheetFormat}

/-- A format with two marks has single characters as its quote and its delimiter. -/
theorem marksOf_eq_ok (h : marksOf format = .ok marks) :
    format.quote.toList = [marks.quote] ∧ format.delimiter.toList = [marks.delimiter] := by
  rw [marksOf] at h
  split at h
  · next delimiter quote =>
      cases h
      exact ⟨quote, delimiter⟩
  · cases h

/-- A table is read with its own marks as its row of names and the rows of its keys in ascending
order, just when its quote is the double quote or no field of it holds a quote of either kind. -/
theorem readRows_writeStore_iff (h : marksOf format = .ok marks)
    (other : marks.quote ≠ marks.delimiter) (quote : Reading.isLineEnd marks.quote = false)
    (delimiter : Reading.isLineEnd marks.delimiter = false)
    (lineEnd : format.lineEnd = "\r\n" ∨ format.lineEnd = "\n") (store : Store) (locale : String) :
    readRows marks (writeStore format store locale).toList =
        (format.keyLabel :: locale :: format.extraFields) ::
          (sortedEntries store).map (fun item => item.1 :: item.2.value ::
            format.extraFields.map fun name => fieldText (item.2.field name)) ↔
      marks.quote = '"' ∨ ∀ row ∈ storeRows format store locale, ∀ text ∈ row,
        marks.quote ∉ text.toList ∧ '"' ∉ text.toList := by
  obtain ⟨ownQuote, ownDelimiter⟩ := marksOf_eq_ok h
  have ends : format.lineEnd.toList = ['\r', '\n'] ∨ format.lineEnd.toList = ['\n'] := by
    rcases lineEnd with same | same <;> rw [same]
    · exact Or.inl rfl
    · exact Or.inr rfl
  have rows : (format.keyLabel :: locale :: format.extraFields) ::
      (sortedEntries store).map (fun item => item.1 :: item.2.value ::
        format.extraFields.map fun name => fieldText (item.2.field name)) =
          storeRows format store locale := (storeRows_eq format store locale).symm
  rw [rows, toList_writeTable ownQuote ownDelimiter,
    readRows_cells_iff ⟨other, quote, delimiter⟩ ends (storeRows_ne_nil format store locale)]
  -- whether the double quote is the quote of the table does not depend on the field
  constructor
  · intro keeps
    by_cases double : marks.quote = '"'
    · exact Or.inl double
    · exact Or.inr fun row there text inside => (keeps row there text inside).resolve_left double
  · rintro (double | none) row there text inside
    · exact Or.inl double
    · exact Or.inr (none row there text inside)

/-- The format of a table with semicolons between its fields and line feeds behind its rows. -/
def semicolons : SheetFormat := { pagesOnly.sheet with delimiter := ";", lineEnd := "\n" }

/-- A table with semicolons is read with its own marks, also where a field has marks inside. -/
theorem readRows_semicolons :
    readRows ⟨';', '"'⟩ (writeStore semicolons (oneKey "Say \"hi\"; you" "Sag\n\"du\"") "de").toList =
      [["ID", "de", "files"], ["Say \"hi\"; you", "Sag\n\"du\"", ""]] := by
  have marked : marksOf semicolons = .ok ⟨';', '"'⟩ := rfl
  have read := (readRows_writeStore_iff marked (by decide) (by decide) (by decide) (Or.inr rfl)
    (oneKey "Say \"hi\"; you" "Sag\n\"du\"") "de").mpr (Or.inl rfl)
  refine read.trans ?_
  decide_cbv

/-- The format of a table with apostrophes around its fields. -/
def apostrophes : SheetFormat := { pagesOnly.sheet with quote := "'" }

/-- A table with apostrophes is not always read with its own marks. -/
theorem readRows_apostrophes :
    ¬∀ (format : SheetFormat) (marks : Marks) (store : Store) (locale : String),
      marksOf format = .ok marks → marks.quote ≠ marks.delimiter →
      Reading.isLineEnd marks.quote = false → Reading.isLineEnd marks.delimiter = false →
      (format.lineEnd = "\r\n" ∨ format.lineEnd = "\n") →
      readRows marks (writeStore format store locale).toList =
        (format.keyLabel :: locale :: format.extraFields) ::
          (sortedEntries store).map (fun item => item.1 :: item.2.value ::
            format.extraFields.map fun name => fieldText (item.2.field name)) := by
  intro reads
  have read := reads apostrophes ⟨',', '\''⟩ (oneKey "k" "it's") "de" rfl (by decide) (by decide)
    (by decide) (Or.inl rfl)
  exact absurd read (by decide_cbv)

end MessageCatalog.Sheet
