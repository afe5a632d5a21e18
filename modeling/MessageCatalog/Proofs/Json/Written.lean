import MessageCatalog.Proofs.Json.Numeral
import MessageCatalog.Proofs.Json.Quoted

/-!
# MessageCatalog.Proofs.Json.Written -- values are read from what they are written as

A layout may put white space between the parts of a value and nothing else. Then the reader takes
every value from what the writer made of it, up to its last character: the same value, but for the
numbers with a fraction or an exponent, which are read anew from their digits.
-/

namespace MessageCatalog.Json

open MessageCatalog.Number MessageCatalog.Text

/-! ## Layouts -/

/-- The white space that a layout may put between values: all but the carriage return, which a file
does not keep. -/
def IsMargin (text : List Char) : Prop := ∀ c ∈ text, c = ' ' ∨ c = '\t' ∨ c = '\n'

/-- A layout that puts nothing but white space between values. -/
def Layout.Blank : Layout → Prop
  | .line => True
  | .block margin => IsMargin margin.toList

theorem Layout.blank_spaces (count : Int) : Layout.Blank (.spaces count) := by
  intro c there
  rw [String.toList_ofList] at there
  exact Or.inl (List.eq_of_mem_replicate there)

variable {layout : Layout}

theorem Layout.Blank.newline (blank : layout.Blank) (depth : Nat) : IsMargin (layout.newline depth) := by
  cases layout with
  | line =>
      intro c there
      cases there
  | block margin =>
      rintro c (_ | ⟨_, there⟩)
      · exact Or.inr (Or.inr rfl)
      · obtain ⟨copy, copies, inside⟩ := List.mem_flatten.mp there
        rw [List.eq_of_mem_replicate copies] at inside
        exact blank c inside

theorem Layout.Blank.separator (blank : layout.Blank) (depth : Nat) :
    ∃ spaces, layout.separator depth = ',' :: spaces ∧ IsMargin spaces := by
  cases layout with
  | line => exact ⟨[' '], rfl, fun c there => Or.inl (List.mem_singleton.mp there)⟩
  | block margin => exact ⟨_, rfl, blank.newline depth⟩

theorem skipSpaces_margin {margin : List Char} (h : IsMargin margin) (text : List Char) :
    skipSpaces (margin ++ text) = skipSpaces text := by
  apply List.dropWhile_append_of_pos
  intro c there
  rcases h c there with rfl | rfl | rfl <;> rfl

theorem skipSpaces_cons {c : Char} (h : isSpace c = false) (text : List Char) :
    skipSpaces (c :: text) = c :: text := by
  rw [skipSpaces, List.dropWhile_cons_of_neg (by simp [h])]

/-! ## What values are read as -/

mutual
/-- What a value is read as when it has been written. -/
def Value.reread : Value → Value
  | .null => .null
  | .bool b => .bool b
  | .int n => .int n
  | .real x => .real (Json.reread x)
  | .text s => .text s
  | .array items => .array (rereadItems items)
  | .object members => .object (Members.ofList (rereadMembers members))

/-- What the items of an array are read as. -/
def rereadItems : List Value → List Value
  | [] => []
  | v :: rest => v.reread :: rereadItems rest

/-- What the members of an object are read as. -/
def rereadMembers : List (String × Value) → List (String × Value)
  | [] => []
  | (name, v) :: rest => (name, v.reread) :: rereadMembers rest
end

/-! ## How values start -/

/-- A character that can start a value: it is neither white space nor the end of an array, nor is it
a byte order mark. -/
def StartsValue (c : Char) : Prop := isSpace c = false ∧ c ≠ ']' ∧ c ≠ '\ufeff'

instance (c : Char) : Decidable (StartsValue c) := inferInstanceAs (Decidable (_ ∧ _ ∧ _))

theorem StartsNumber.startsValue {c : Char} (h : StartsNumber c) : StartsValue c := by
  have space : c ≠ ' ' := h.ne (by decide) (by decide)
  have tab : c ≠ '\t' := h.ne (by decide) (by decide)
  have feed : c ≠ '\n' := h.ne (by decide) (by decide)
  have carriage : c ≠ '\r' := h.ne (by decide) (by decide)
  refine ⟨?_, h.ne (by decide) (by decide), h.ne (by decide) (by decide)⟩
  simp [isSpace, space, tab, feed, carriage]

theorem exists_cons_writeValue (layout : Layout) (depth : Nat) (v : Value) :
    ∃ c more, writeValue layout depth v = c :: more ∧ StartsValue c := by
  cases v with
  | null => exact ⟨'n', _, rfl, by decide⟩
  | bool b =>
      cases b with
      | false => exact ⟨'f', _, rfl, by decide⟩
      | true => exact ⟨'t', _, rfl, by decide⟩
  | int n =>
      obtain ⟨c, more, first, number⟩ := exists_cons_int n
      exact ⟨c, more, first, number.startsValue⟩
  | real x =>
      obtain ⟨c, more, first, number⟩ := exists_cons_real x
      exact ⟨c, more, first, number.startsValue⟩
  | text s => exact ⟨'"', _, rfl, by decide⟩
  | array items =>
      cases items with
      | nil => exact ⟨'[', _, rfl, by decide⟩
      | cons v rest => exact ⟨'[', _, rfl, by decide⟩
  | object members =>
      cases members with
      | nil => exact ⟨'\x7b', _, rfl, by decide⟩
      | cons member rest => exact ⟨'\x7b', _, rfl, by decide⟩

theorem skipSpaces_writeValue (layout : Layout) (depth : Nat) (v : Value) (text : List Char) :
    skipSpaces (writeValue layout depth v ++ text) = writeValue layout depth v ++ text := by
  obtain ⟨c, more, first, starts⟩ := exists_cons_writeValue layout depth v
  rw [first, List.cons_append, skipSpaces_cons starts.1]

/-! ## One part -/

variable {lone : Nat → Option Char} {fuel : Nat} {value : Value} {text after rest : List Char}

/-- What starts with none of the quotes and brackets is a number or a constant. -/
theorem readValue_scalar {c : Char} (quote : c ≠ '"') (array : c ≠ '[') (object : c ≠ '\x7b') :
    readValue lone (fuel + 1) (c :: text) = readScalar (c :: text) := by
  unfold readValue
  split
  · next same => exact absurd (List.cons.inj same).1 quote
  · next same => exact absurd (List.cons.inj same).1 array
  · next same => exact absurd (List.cons.inj same).1 object
  · rfl

theorem StartsNumber.readValue {c : Char} (h : StartsNumber c) :
    readValue lone (fuel + 1) (c :: text) = readScalar (c :: text) :=
  readValue_scalar (h.ne (by decide) (by decide)) (h.ne (by decide) (by decide))
    (h.ne (by decide) (by decide))

theorem readItems_last (read : readValue lone fuel text = .ok (value, after))
    (last : skipSpaces after = ']' :: rest) :
    readItems lone (fuel + 1) text = .ok ([value], rest) := by
  rw [readItems, read]
  simp only [last]

theorem readItems_more {items : List Value} {others : List Char}
    (read : readValue lone fuel text = .ok (value, after)) (more : skipSpaces after = ',' :: others)
    (readOthers : readItems lone fuel (skipSpaces others) = .ok (items, rest)) :
    readItems lone (fuel + 1) text = .ok (value :: items, rest) := by
  rw [readItems, read]
  simp only [more, readOthers]
  rfl

/-- The name of a member and what stands between it and its value. -/
def writtenName (name : String) : List Char := writeText name ++ [':', ' ']

theorem readText_writtenName (name : String) (text : List Char) :
    ∃ inner, writtenName name ++ text = '"' :: inner ∧
      ∀ lone opening, readText lone opening inner = .ok (name, ':' :: ' ' :: text) := by
  rw [writtenName, List.append_assoc]
  exact readText_writeText (':' :: ' ' :: text) name

/-- The colon behind a name is not white space, and the space behind the colon is. -/
theorem skipSpaces_behindName (starts : skipSpaces text = text) :
    skipSpaces (':' :: ' ' :: text) = ':' :: ' ' :: text ∧ skipSpaces (' ' :: text) = text :=
  ⟨skipSpaces_cons rfl _, starts⟩

theorem readMembers_last {name : String} (starts : skipSpaces text = text)
    (read : readValue lone fuel text = .ok (value, after))
    (last : skipSpaces after = '\x7d' :: rest) :
    readMembers lone (fuel + 1) (writtenName name ++ text) = .ok ([(name, value)], rest) := by
  obtain ⟨inner, quoted, named⟩ := readText_writtenName name text
  obtain ⟨colon, space⟩ := skipSpaces_behindName starts
  rw [quoted, readMembers, named]
  simp only [colon, space, read, last]

theorem readMembers_more {name : String} {pairs : List (String × Value)} {others : List Char}
    (starts : skipSpaces text = text) (read : readValue lone fuel text = .ok (value, after))
    (more : skipSpaces after = ',' :: others)
    (readOthers : readMembers lone fuel (skipSpaces others) = .ok (pairs, rest)) :
    readMembers lone (fuel + 1) (writtenName name ++ text) = .ok ((name, value) :: pairs, rest) := by
  obtain ⟨inner, quoted, named⟩ := readText_writtenName name text
  obtain ⟨colon, space⟩ := skipSpaces_behindName starts
  rw [quoted, readMembers, named]
  simp only [colon, space, read, more, readOthers]
  rfl

theorem readValue_array {items : List Value} {c : Char} (first : skipSpaces text = c :: after)
    (some : c ≠ ']') (read : readItems lone fuel (c :: after) = .ok (items, rest)) :
    readValue lone (fuel + 1) ('[' :: text) = .ok (.array items, rest) := by
  rw [readValue]
  simp only [first]
  split
  · next same => exact absurd (List.cons.inj same).1 some
  · rw [read]
    rfl

theorem readValue_object {pairs : List (String × Value)} {c : Char}
    (first : skipSpaces text = c :: after) (some : c ≠ '\x7d')
    (read : readMembers lone fuel (c :: after) = .ok (pairs, rest)) :
    readValue lone (fuel + 1) ('\x7b' :: text) = .ok (.object (Members.ofList pairs), rest) := by
  rw [readValue]
  simp only [first]
  split
  · next same => exact absurd (List.cons.inj same).1 some
  · rw [read]
    rfl

/-! ## Whole values -/

theorem endsNumber_of_isSpace {c : Char} (h : isSpace c = true) (more : List Char) :
    EndsNumber (c :: more) := by
  simp only [isSpace, Bool.or_eq_true, beq_iff_eq] at h
  rcases h with ((rfl | rfl) | rfl) | rfl
  all_goals exact endsNumber_cons rfl (by decide) (by decide) (by decide) more

/-- A number ends before the white space and the bracket that close an array or object. -/
theorem endsNumber_margin {margin : List Char} (h : IsMargin margin) {c : Char}
    (ends : EndsNumber (c :: rest)) : EndsNumber (margin ++ c :: rest) := by
  cases margin with
  | nil => exact ends
  | cons d more =>
      apply endsNumber_of_isSpace
      rcases h d List.mem_cons_self with rfl | rfl | rfl <;> rfl

/-- What stands behind a value inside an array or object: another part or what closes it. -/
theorem endsNumber_separator (blank : layout.Blank) (depth : Nat) (more : List Char) :
    EndsNumber (layout.separator depth ++ more) := by
  obtain ⟨spaces, same, -⟩ := blank.separator depth
  rw [same]
  exact endsNumber_cons rfl (by decide) (by decide) (by decide) _

/-- The first part of an array and what is behind it. -/
theorem writeValue_array (layout : Layout) (depth : Nat) (v : Value) (items : List Value)
    (rest : List Char) :
    writeValue layout depth (.array (v :: items)) ++ rest =
      '[' :: (layout.newline (depth + 1) ++ (writeValue layout (depth + 1) v ++
        (writeItems layout (depth + 1) items ++ (layout.newline depth ++ ']' :: rest)))) := by
  simp [writeValue]

theorem writeValue_object (layout : Layout) (depth : Nat) (name : String) (v : Value)
    (members : List (String × Value)) (rest : List Char) :
    writeValue layout depth (.object ((name, v) :: members)) ++ rest =
      '\x7b' :: (layout.newline (depth + 1) ++ (writtenName name ++
        (writeValue layout (depth + 1) v ++ (writeMembers layout (depth + 1) members ++
          (layout.newline depth ++ '\x7d' :: rest))))) := by
  simp [writeValue, writtenName]

theorem writeItems_cons (layout : Layout) (depth : Nat) (v : Value) (items : List Value)
    (rest : List Char) :
    writeItems layout depth (v :: items) ++ rest =
      layout.separator depth ++ (writeValue layout depth v ++
        (writeItems layout depth items ++ rest)) := by
  simp [writeItems]

theorem writeMembers_cons (layout : Layout) (depth : Nat) (name : String) (v : Value)
    (members : List (String × Value)) (rest : List Char) :
    writeMembers layout depth ((name, v) :: members) ++ rest =
      layout.separator depth ++ (writtenName name ++ (writeValue layout depth v ++
        (writeMembers layout depth members ++ rest))) := by
  simp [writeMembers, writtenName]

theorem skipSpaces_writtenName (name : String) (text : List Char) :
    skipSpaces (writtenName name ++ text) = writtenName name ++ text := by
  obtain ⟨inner, quoted, -⟩ := readText_writtenName name text
  rw [quoted, skipSpaces_cons rfl]

mutual
/-- A value is read from what it is written as, up to what stands behind it. -/
theorem readValue_writeValue (lone : Nat → Option Char) (blank : layout.Blank) (depth : Nat)
    (v : Value) (fuel : Nat) (rest : List Char) (ends : EndsNumber rest)
    (enough : 2 * (writeValue layout depth v).length ≤ fuel) :
    readValue lone fuel (writeValue layout depth v ++ rest) = .ok (v.reread, rest) := by
  obtain ⟨c, more, first, starts⟩ := exists_cons_writeValue layout depth v
  have some : 0 < (writeValue layout depth v).length := by
    rw [first]
    exact Nat.succ_pos _
  obtain ⟨less, rfl⟩ : ∃ less, fuel = less + 1 := Nat.exists_eq_add_one.mpr (by omega)
  cases v with
  | null => rfl
  | bool b => cases b <;> rfl
  | int n =>
      obtain ⟨c, more, first, number⟩ := exists_cons_int n
      rw [Value.reread, ← readScalar_int n ends]
      show readValue lone (less + 1) ((toString n).toList ++ rest) = _
      rw [first, List.cons_append, number.readValue]
  | real x =>
      obtain ⟨c, more, first, number⟩ := exists_cons_real x
      rw [Value.reread, ← readScalar_real x ends]
      show readValue lone (less + 1) ((x.render jsonNames).toList ++ rest) = _
      rw [first, List.cons_append, number.readValue]
  | text s =>
      obtain ⟨inner, quoted, read⟩ := readText_writeText rest s
      show readValue lone (less + 1) (writeText s ++ rest) = _
      rw [quoted, readValue, read]
      rfl
  | array items =>
      cases items with
      | nil => rfl
      | cons v items =>
          have size : 2 * ((writeValue layout (depth + 1) v).length +
              (writeItems layout (depth + 1) items).length) < less := by
            simp only [writeValue, List.length_cons, List.length_append] at enough
            omega
          have read := readItems_writeItems lone blank (depth + 1) v items less
            (layout.newline depth) rest (blank.newline depth) size
          obtain ⟨c, more, first, starts⟩ := exists_cons_writeValue layout (depth + 1) v
          rw [first, List.cons_append] at read
          rw [writeValue_array, Value.reread, rereadItems]
          apply readValue_array _ starts.2.1 read
          rw [skipSpaces_margin (blank.newline _), skipSpaces_writeValue, first, List.cons_append]
  | object members =>
      cases members with
      | nil => rfl
      | cons member members =>
          obtain ⟨name, v⟩ := member
          have size : 2 * ((writeValue layout (depth + 1) v).length +
              (writeMembers layout (depth + 1) members).length) < less := by
            simp only [writeValue, List.length_cons, List.length_append] at enough
            omega
          have read := readMembers_writeMembers lone blank (depth + 1) name v members less
            (layout.newline depth) rest (blank.newline depth) size
          obtain ⟨inner, quoted, -⟩ := readText_writtenName name
            (writeValue layout (depth + 1) v ++ (writeMembers layout (depth + 1) members ++
              (layout.newline depth ++ '\x7d' :: rest)))
          rw [quoted] at read
          rw [writeValue_object, Value.reread, rereadMembers]
          apply readValue_object _ (by decide) read
          rw [skipSpaces_margin (blank.newline _), skipSpaces_writtenName, quoted]
termination_by fuel

/-- The items of an array are read from the first one to the closing bracket. -/
theorem readItems_writeItems (lone : Nat → Option Char) (blank : layout.Blank) (depth : Nat)
    (v : Value) (items : List Value) (fuel : Nat) (margin rest : List Char) (closing : IsMargin margin)
    (enough : 2 * ((writeValue layout depth v).length + (writeItems layout depth items).length) <
      fuel) :
    readItems lone fuel (writeValue layout depth v ++
      (writeItems layout depth items ++ (margin ++ ']' :: rest))) =
        .ok (v.reread :: rereadItems items, rest) := by
  obtain ⟨less, rfl⟩ : ∃ less, fuel = less + 1 := Nat.exists_eq_add_one.mpr (by omega)
  cases items with
  | nil =>
      have ends : EndsNumber (margin ++ ']' :: rest) :=
        endsNumber_margin closing (endsNumber_cons rfl (by decide) (by decide) (by decide) rest)
      apply readItems_last (readValue_writeValue lone blank depth v less _ ends (by omega))
      rw [skipSpaces_margin closing, skipSpaces_cons rfl]
  | cons w others =>
      obtain ⟨spaces, same, between⟩ := blank.separator depth
      have size : 2 * ((writeValue layout depth w).length +
          (writeItems layout depth others).length) < less := by
        simp only [writeItems, same, List.length_cons, List.length_append] at enough
        omega
      have read := readItems_writeItems lone blank depth w others less margin rest closing size
      rw [writeItems_cons]
      apply readItems_more
        (readValue_writeValue lone blank depth v less _ (endsNumber_separator blank depth _)
          (by omega))
      · rw [same, List.cons_append, skipSpaces_cons rfl]
      · rw [skipSpaces_margin between, skipSpaces_writeValue, read, rereadItems]
termination_by fuel

/-- The members of an object are read from the first one to the closing brace. -/
theorem readMembers_writeMembers (lone : Nat → Option Char) (blank : layout.Blank) (depth : Nat)
    (name : String) (v : Value) (members : List (String × Value)) (fuel : Nat)
    (margin rest : List Char) (closing : IsMargin margin)
    (enough : 2 * ((writeValue layout depth v).length +
      (writeMembers layout depth members).length) < fuel) :
    readMembers lone fuel (writtenName name ++ (writeValue layout depth v ++
      (writeMembers layout depth members ++ (margin ++ '\x7d' :: rest)))) =
        .ok ((name, v.reread) :: rereadMembers members, rest) := by
  obtain ⟨less, rfl⟩ : ∃ less, fuel = less + 1 := Nat.exists_eq_add_one.mpr (by omega)
  have starts := skipSpaces_writeValue layout depth v
  cases members with
  | nil =>
      have ends : EndsNumber (margin ++ '\x7d' :: rest) :=
        endsNumber_margin closing (endsNumber_cons rfl (by decide) (by decide) (by decide) rest)
      apply readMembers_last (starts _)
        (readValue_writeValue lone blank depth v less _ ends (by omega))
      rw [skipSpaces_margin closing, skipSpaces_cons rfl]
  | cons member others =>
      obtain ⟨name', w⟩ := member
      obtain ⟨spaces, same, between⟩ := blank.separator depth
      have size : 2 * ((writeValue layout depth w).length +
          (writeMembers layout depth others).length) < less := by
        simp only [writeMembers, same, List.length_cons, List.length_append] at enough
        omega
      have read := readMembers_writeMembers lone blank depth name' w others less margin rest closing
        size
      rw [writeMembers_cons]
      apply readMembers_more (starts _)
        (readValue_writeValue lone blank depth v less _ (endsNumber_separator blank depth _)
          (by omega))
      · rw [same, List.cons_append, skipSpaces_cons rfl]
      · rw [skipSpaces_margin between, skipSpaces_writtenName, read, rereadMembers]
termination_by fuel
end

/-! ## Line ends -/

theorem unifyLineEnds_of_not_mem {text : List Char} (h : '\r' ∉ text) : unifyLineEnds text = text := by
  induction text with
  | nil => rfl
  | cons c rest ih =>
      rw [List.mem_cons, not_or] at h
      rw [unifyLineEnds, ih h.2]
      · exact fun more same _ => h.1 same.symm
      · exact fun same => h.1 same.symm

theorem return_not_mem_margin {margin : List Char} (h : IsMargin margin) : '\r' ∉ margin := by
  intro there
  exact absurd (h '\r' there) (by decide)

theorem return_not_mem_separator (blank : layout.Blank) (depth : Nat) :
    '\r' ∉ layout.separator depth := by
  obtain ⟨spaces, same, margin⟩ := blank.separator depth
  rw [same, List.mem_cons, not_or]
  exact ⟨by decide, return_not_mem_margin margin⟩

mutual
/-- A written value has no carriage return. -/
theorem return_not_mem_writeValue (blank : layout.Blank) (depth : Nat) (v : Value) :
    '\r' ∉ writeValue layout depth v := by
  cases v with
  | null => simp [writeValue]
  | bool b => cases b <;> simp [writeValue]
  | int n => exact return_not_mem_int n
  | real x => exact return_not_mem_real x
  | text s => exact return_not_mem_writeText s
  | array items =>
      cases items with
      | nil => simp [writeValue]
      | cons v items =>
          have inside := return_not_mem_writeValue blank (depth + 1) v
          have behind := return_not_mem_writeItems blank (depth + 1) items
          have before := return_not_mem_margin (blank.newline (depth + 1))
          have closing := return_not_mem_margin (blank.newline depth)
          simp [writeValue, inside, behind, before, closing]
  | object members =>
      cases members with
      | nil => simp [writeValue]
      | cons member members =>
          obtain ⟨name, v⟩ := member
          have inside := return_not_mem_writeValue blank (depth + 1) v
          have behind := return_not_mem_writeMembers blank (depth + 1) members
          have before := return_not_mem_margin (blank.newline (depth + 1))
          have closing := return_not_mem_margin (blank.newline depth)
          simp [writeValue, return_not_mem_writeText name, inside, behind, before, closing]

theorem return_not_mem_writeItems (blank : layout.Blank) (depth : Nat) (items : List Value) :
    '\r' ∉ writeItems layout depth items := by
  cases items with
  | nil => exact List.not_mem_nil
  | cons v rest =>
      have inside := return_not_mem_writeValue blank depth v
      have behind := return_not_mem_writeItems blank depth rest
      simp [writeItems, return_not_mem_separator blank depth, inside, behind]

theorem return_not_mem_writeMembers (blank : layout.Blank) (depth : Nat)
    (members : List (String × Value)) : '\r' ∉ writeMembers layout depth members := by
  cases members with
  | nil => exact List.not_mem_nil
  | cons member rest =>
      obtain ⟨name, v⟩ := member
      have inside := return_not_mem_writeValue blank depth v
      have behind := return_not_mem_writeMembers blank depth rest
      simp [writeMembers, return_not_mem_separator blank depth, return_not_mem_writeText name,
        inside, behind]
end

/-! ## Documents -/

/-- The text that a value is written as, with a line end behind it, is read as one value. -/
theorem readDocument_write (lone : Nat → Option Char) (blank : layout.Blank) (v : Value) :
    readDocument lone (writeValue layout 0 v ++ ['\n']) = .ok v.reread := by
  obtain ⟨c, more, first, starts⟩ := exists_cons_writeValue layout 0 v
  have start := skipSpaces_writeValue layout 0 v ['\n']
  have read := readValue_writeValue lone blank 0 v (2 * (writeValue layout 0 v ++ ['\n']).length + 1)
    ['\n'] (endsNumber_of_isSpace rfl []) (by
      rw [List.length_append]
      omega)
  unfold readDocument
  split
  · next other same =>
    rw [first] at same
    exact absurd (List.cons.inj same).1 starts.2.2
  · rw [start, read]
    rfl

theorem toList_write (v : Value) :
    (write layout v ++ "\n").toList = writeValue layout 0 v ++ ['\n'] := by
  simp [write]

theorem read_text_write (blank : layout.Blank) (v : Value) :
    Json.read (write layout v ++ "\n").toList = .ok v.reread := by
  rw [toList_write, read]
  simp only [readDocument_write _ blank]

/-- A file keeps the line ends of a written value. -/
theorem unifyLineEnds_write (blank : layout.Blank) (v : Value) :
    unifyLineEnds (write layout v ++ "\n").toList = (write layout v ++ "\n").toList := by
  have noReturn : '\r' ∉ writeValue layout 0 v ++ ['\n'] := by
    rw [List.mem_append, not_or]
    exact ⟨return_not_mem_writeValue blank 0 v, by decide⟩
  rw [toList_write, unifyLineEnds_of_not_mem noReturn]

end MessageCatalog.Json
