import MessageCatalog.Proofs.Keyed
import MessageCatalog.Sheet.Reader
import MessageCatalog.Sheet.Writer

/-!
# MessageCatalog.Proofs.Sheet.Rows -- rows are read as they were written

Every field that is written stands in the quotes of the table, its double quotes doubled, so that
delimiters and line ends inside it are part of it. Where the double quote is the quote of the table,
as it is by default, reading gives the rows back, field by field, whatever characters they hold; in
other quotes it does so for fields without quotes of either kind.
-/

namespace MessageCatalog.Text

/-- Replacing a character changes each place where it stands and nothing else. -/
theorem replaceAll_singleton (c : Char) (replacement text : List Char) :
    replaceAll [c] replacement text =
      text.flatMap fun d => if d = c then replacement else [d] := by
  rw [replaceAll, List.isEmpty_cons, if_neg (by decide)]
  induction text with
  | nil => rw [replacePart, List.flatMap_nil]
  | cons d rest ih =>
      rw [List.flatMap_cons, ← ih, replacePart]
      by_cases same : d = c
      · subst same
        simp [startsWith, after?]
      · simp [startsWith, after?, same, Ne.symm same]

end MessageCatalog.Text

namespace MessageCatalog.Sheet

open MessageCatalog.Config MessageCatalog.Text

/-! ## Written rows -/

/-- The quote, the delimiter and the line end are the default ones. -/
structure DefaultMarks (format : SheetFormat) : Prop where
  quote : format.quote = "\""
  delimiter : format.delimiter = ","
  lineEnd : format.lineEnd = "\r\n"

/-- The default marks. -/
def defaultMarks : Marks := ⟨',', '"'⟩

/-- A character of a field, a quote doubled. -/
def doubled (c : Char) : List Char := if c = '"' then ['"', '"'] else [c]

/-- A field in its quotes. -/
def fieldChars (field : String) : List Char :=
  '"' :: (field.toList.flatMap doubled ++ ['"'])

/-- The fields of a row with commas between. -/
def cellChars (fields : List String) : List Char := [','].intercalate (fields.map fieldChars)

/-- A row with its line end. -/
def rowChars (fields : List String) : List Char := cellChars fields ++ ['\r', '\n']

/-! ## Any marks -/

namespace Marks

/-- A field in the quotes of a table. -/
def field (marks : Marks) (text : String) : List Char :=
  marks.quote :: (text.toList.flatMap doubled ++ [marks.quote])

/-- The fields of a row with delimiters between. -/
def cells (marks : Marks) (fields : List String) : List Char :=
  [marks.delimiter].intercalate (fields.map marks.field)

/-- The marks are different, and neither is part of a line end. -/
structure Apart (marks : Marks) : Prop where
  other : marks.quote ≠ marks.delimiter
  quote : Reading.isLineEnd marks.quote = false
  delimiter : Reading.isLineEnd marks.delimiter = false

/-- What is written for a text is the text in quotes: double quotes are written twice, which means
one where they are the quotes of the table. -/
def Keeps (marks : Marks) (text : List Char) : Prop :=
  marks.quote = '"' ∨ marks.quote ∉ text ∧ '"' ∉ text

variable {marks : Marks}

theorem Keeps.tail {c : Char} {text : List Char} (h : marks.Keeps (c :: text)) :
    marks.Keeps text :=
  h.imp_right fun none => ⟨fun there => none.1 (List.mem_cons_of_mem c there),
    fun there => none.2 (List.mem_cons_of_mem c there)⟩

theorem cells_singleton (text : String) : marks.cells [text] = marks.field text := by
  simp [cells]

theorem cells_cons (text : String) {rest : List String} (some : rest ≠ []) :
    marks.cells (text :: rest) = marks.field text ++ marks.delimiter :: marks.cells rest := by
  cases rest with
  | nil => exact absurd rfl some
  | cons next rest => simp [cells, List.intercalate_cons_cons]

/-- The fields in front of one stand there with their delimiters. -/
theorem cells_append (front : List String) (text : String) (rest : List String) :
    marks.cells (front ++ text :: rest) =
      front.flatMap (fun text => marks.field text ++ [marks.delimiter]) ++
        marks.cells (text :: rest) := by
  induction front with
  | nil => rfl
  | cons first others ih =>
      rw [List.cons_append, cells_cons first (by simp), ih, List.flatMap_cons]
      simp only [List.append_assoc, List.cons_append, List.nil_append]

end Marks

theorem apart_defaultMarks : defaultMarks.Apart := ⟨by decide, by decide, by decide⟩

theorem cellChars_singleton (field : String) : cellChars [field] = fieldChars field :=
  show defaultMarks.cells [field] = defaultMarks.field field from Marks.cells_singleton field

theorem cellChars_cons (field : String) {rest : List String} (some : rest ≠ []) :
    cellChars (field :: rest) = fieldChars field ++ ',' :: cellChars rest :=
  show defaultMarks.cells (field :: rest) = _ from Marks.cells_cons field some

variable {format : SheetFormat}

theorem toList_writeRow {marks : Marks} (quote : format.quote.toList = [marks.quote])
    (delimiter : format.delimiter.toList = [marks.delimiter]) (fields : List String) :
    (writeRow format fields).toList = marks.cells fields ++ format.lineEnd.toList := by
  have quoted : ∀ text : String,
      (format.quote ++ escape text ++ format.quote).toList = marks.field text := by
    intro text
    have inner : (escape text).toList = text.toList.flatMap doubled := by
      rw [escape, String.toList_ofList, replaceAll_singleton]
      rfl
    rw [String.toList_append, String.toList_append, inner, quote]
    rfl
  have all : fields.map (String.toList ∘ fun text => format.quote ++ escape text ++ format.quote) =
      fields.map marks.field := List.map_congr_left fun text _ => quoted text
  rw [writeRow, String.toList_append, String.toList_intercalate, delimiter, List.map_map, all]
  rfl

/-- A table is its rows, one after the other. -/
theorem toList_writeTable {marks : Marks} (quote : format.quote.toList = [marks.quote])
    (delimiter : format.delimiter.toList = [marks.delimiter]) (store : Store) (locale : String) :
    (writeStore format store locale).toList = (storeRows format store locale).flatMap
      fun row => marks.cells row ++ format.lineEnd.toList := by
  rw [writeStore, String.toList_join, List.flatMap_map]
  exact congrArg (List.flatMap · _) (funext fun fields => toList_writeRow quote delimiter fields)

/-- A table with the default marks is its rows, one after the other. -/
theorem toList_writeStore (h : DefaultMarks format) (store : Store) (locale : String) :
    (writeStore format store locale).toList =
      (storeRows format store locale).flatMap rowChars := by
  have quote : format.quote.toList = [defaultMarks.quote] := by rw [h.quote]; rfl
  have delimiter : format.delimiter.toList = [defaultMarks.delimiter] := by rw [h.delimiter]; rfl
  rw [toList_writeTable quote delimiter, h.lineEnd]
  rfl

/-! ## Reading a field -/

namespace Reading

variable {marks : Marks}

/-- A field may start. -/
def Starts (r : Reading) : Prop :=
  r.field = [] ∧ (r.place = .fieldStart ∨ ∃ afterReturn, r.place = .rowStart afterReturn)

theorem step_opening (apart : marks.Apart) {r : Reading} (h : r.Starts) :
    r.step marks marks.quote = { r with place := .inQuotes } := by
  obtain ⟨rows, fields, field, place⟩ := r
  have noLineFeed : (marks.quote == '\n') = false := by
    have quote := apart.quote
    rw [isLineEnd, Bool.or_eq_false_iff] at quote
    exact quote.1
  rcases h.2 with rfl | ⟨afterReturn, rfl⟩
  · simp [step, stepFieldStart, apart.quote]
  · simp [step, stepFieldStart, apart.quote, noLineFeed]

/-- What stands between quotes is the text that it was written for. -/
theorem foldl_inside {chars : List Char} (keeps : marks.Keeps chars) (rows : List (List String))
    (fields : List String) (field : List Char) :
    (chars.flatMap doubled).foldl (step marks) ⟨rows, fields, field, .inQuotes⟩ =
      ⟨rows, fields, chars.reverse ++ field, .inQuotes⟩ := by
  induction chars generalizing field with
  | nil => rfl
  | cons c rest ih =>
      have one : (doubled c).foldl (step marks) ⟨rows, fields, field, .inQuotes⟩ =
          ⟨rows, fields, c :: field, .inQuotes⟩ := by
        rcases keeps with own | ⟨none, single⟩
        · by_cases quote : c = '"'
          · simp [doubled, quote, own, step, add]
          · simp [doubled, quote, own, step, add]
        · rw [List.mem_cons, not_or] at none single
          simp [doubled, Ne.symm single.1, Ne.symm none.1, step, add]
      rw [List.flatMap_cons, List.foldl_append, one, ih keeps.tail, List.reverse_cons,
        List.append_assoc]
      rfl

theorem foldl_field (apart : marks.Apart) {r : Reading} (h : r.Starts) {text : String}
    (keeps : marks.Keeps text.toList) :
    (marks.field text).foldl (step marks) r =
      { r with field := text.toList.reverse, place := .afterQuote } := by
  have inside := foldl_inside keeps r.rows r.fields []
  rw [Marks.field, List.foldl_cons, step_opening apart h, List.foldl_append]
  have opened : ({ r with place := .inQuotes } : Reading) = ⟨r.rows, r.fields, [], .inQuotes⟩ := by
    rw [← h.1]
  rw [opened, inside, List.append_nil]
  simp [step]

/-! ## Reading rows -/

theorem endField_reverse (r : Reading) (field : String) (place : Place) :
    ({ r with field := field.toList.reverse } : Reading).endField place =
      { r with fields := field :: r.fields, field := [], place } := by
  simp [endField]

/-- Fields with their delimiters are read one by one. -/
theorem foldl_fields (apart : marks.Apart) {r : Reading} (h : r.Starts) {front : List String}
    (keeps : ∀ text ∈ front, marks.Keeps text.toList) :
    ∃ read : Reading, read.Starts ∧ read.rows = r.rows ∧
      read.fields = front.reverse ++ r.fields ∧
      (front.flatMap fun text => marks.field text ++ [marks.delimiter]).foldl (step marks) r =
        read := by
  induction front generalizing r with
  | nil => exact ⟨r, h, rfl, rfl, rfl⟩
  | cons text rest ih =>
      rw [List.forall_mem_cons] at keeps
      have ended := endField_reverse r text .fieldStart
      have delimited : ({ r with field := text.toList.reverse, place := .afterQuote } :
          Reading).step marks marks.delimiter =
            { r with fields := text :: r.fields, field := [], place := .fieldStart } := by
        rw [← ended]
        simp [step, Ne.symm apart.other, apart.delimiter, endField]
      obtain ⟨read, starts, rows, fields, same⟩ :=
        ih (r := { r with fields := text :: r.fields, field := [], place := .fieldStart })
          ⟨rfl, Or.inl rfl⟩ keeps.2
      refine ⟨read, starts, rows, ?_, ?_⟩
      · rw [fields]
        simp
      · rw [List.flatMap_cons, List.foldl_append, List.foldl_append, foldl_field apart h keeps.1,
          List.foldl_cons, List.foldl_nil, delimited, same]

/-- The fields of a row are read up to the closing quote of the last. -/
theorem foldl_cells (apart : marks.Apart) {r : Reading} (h : r.Starts) {front : List String}
    {last : String} (keeps : ∀ text ∈ front ++ [last], marks.Keeps text.toList) :
    (marks.cells (front ++ [last])).foldl (step marks) r =
      ⟨r.rows, front.reverse ++ r.fields, last.toList.reverse, .afterQuote⟩ := by
  rw [List.forall_mem_append] at keeps
  obtain ⟨read, starts, rows, fields, same⟩ := foldl_fields apart h keeps.1
  have own := foldl_field apart starts (keeps.2 last List.mem_cons_self)
  rw [Marks.cells_append, Marks.cells_singleton, List.foldl_append, same, own, rows, fields]

/-- A line end of either kind behind the last field ends the row. -/
theorem foldl_lineEnd (apart : marks.Apart) (rows : List (List String)) (front : List String)
    (last : String) {lineEnd : List Char} (ends : lineEnd = ['\r', '\n'] ∨ lineEnd = ['\n']) :
    lineEnd.foldl (step marks) ⟨rows, front.reverse, last.toList.reverse, .afterQuote⟩ =
      ⟨(front ++ [last]) :: rows, [], [], .rowStart false⟩ := by
  have apart' : ∀ {c : Char}, isLineEnd c = true → c ≠ marks.quote ∧ c ≠ marks.delimiter := by
    rintro c isEnd
    constructor
    · rintro rfl
      rw [apart.quote] at isEnd
      cases isEnd
    · rintro rfl
      rw [apart.delimiter] at isEnd
      cases isEnd
  obtain ⟨return1, return2⟩ := apart' (c := '\r') rfl
  obtain ⟨feed1, feed2⟩ := apart' (c := '\n') rfl
  rcases ends with rfl | rfl
  · simp [step, return1, return2, isLineEnd, endField, endRow]
  · simp [step, feed1, feed2, isLineEnd, endField, endRow]

theorem foldl_rows (apart : marks.Apart) {lineEnd : List Char}
    (ends : lineEnd = ['\r', '\n'] ∨ lineEnd = ['\n']) {rows : List (List String)}
    (some : ∀ row ∈ rows, row ≠ []) (keeps : ∀ row ∈ rows, ∀ text ∈ row, marks.Keeps text.toList)
    (done : List (List String)) :
    (rows.flatMap fun row => marks.cells row ++ lineEnd).foldl (step marks)
        ⟨done, [], [], .rowStart false⟩ =
      ⟨rows.reverse ++ done, [], [], .rowStart false⟩ := by
  induction rows generalizing done with
  | nil => rfl
  | cons row rest ih =>
      rw [List.forall_mem_cons] at some keeps
      obtain ⟨front, last, rfl⟩ : ∃ front last, row = front ++ [last] :=
        ⟨row.dropLast, row.getLast some.1, (List.dropLast_concat_getLast some.1).symm⟩
      rw [List.flatMap_cons, List.foldl_append, List.foldl_append,
        foldl_cells apart ⟨rfl, Or.inr ⟨false, rfl⟩⟩ keeps.1, List.append_nil,
        foldl_lineEnd apart _ _ _ ends, ih some.2 keeps.2]
      simp

end Reading

/-- Rows with fields that the marks keep are read as they were written, with line ends of either
kind. -/
theorem readRows_cells {marks : Marks} (apart : marks.Apart) {lineEnd : List Char}
    (ends : lineEnd = ['\r', '\n'] ∨ lineEnd = ['\n']) {rows : List (List String)}
    (some : ∀ row ∈ rows, row ≠ [])
    (keeps : ∀ row ∈ rows, ∀ text ∈ row, marks.Keeps text.toList) :
    readRows marks (rows.flatMap fun row => marks.cells row ++ lineEnd) = rows := by
  have read := Reading.foldl_rows apart ends some keeps []
  rw [readRows, Reading.start, read, Reading.finish]
  simp

/-- Rows with fields are read as they were written, with line ends of either kind. -/
theorem readRows_cellChars {lineEnd : List Char} (ends : lineEnd = ['\r', '\n'] ∨ lineEnd = ['\n'])
    {rows : List (List String)} (some : ∀ row ∈ rows, row ≠ []) :
    readRows defaultMarks (rows.flatMap fun row => cellChars row ++ lineEnd) = rows :=
  readRows_cells apart_defaultMarks ends some fun _ _ _ _ => Or.inl rfl

/-- Rows with fields are read as they were written. -/
theorem readRows_rowChars {rows : List (List String)} (some : ∀ row ∈ rows, row ≠ []) :
    readRows defaultMarks (rows.flatMap rowChars) = rows :=
  readRows_cellChars (Or.inl rfl) some

end MessageCatalog.Sheet
