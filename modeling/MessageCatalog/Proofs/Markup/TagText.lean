import MessageCatalog.Proofs.Markup.Escaped
import MessageCatalog.Proofs.Text.Lowercase

/-!
# MessageCatalog.Proofs.Markup.TagText -- tags that are written again are read as they were

The names of the tags and attributes of a page have been put in small letters, which leaves them
names. Written by the minifier, with one space between attributes and every value in double quotes,
a start tag is read again with the same name, attributes and ending, and so is an end tag. There are
two exceptions: an attribute without a value takes a value where the next name starts with an equals
sign, and an end tag loses a blank at the end of its name.
-/

namespace MessageCatalog.Markup

open MessageCatalog.Text

/-! ## Names -/

/-- The name of a tag as it is read: a letter first, no character that ends a name, and all in small
letters. -/
structure IsTagName (name : String) : Prop where
  letter : ∃ first others, name.toList = first :: others ∧ isAsciiLetter first = true
  inside : ∀ c ∈ name.toList, isTagNameCharacter c = true
  small : nameOf name.toList = name

/-- An attribute as it is read: its name has the characters of such a name, in small letters. -/
structure Attribute.Proper (a : Attribute) : Prop where
  name : ∃ first others, a.name.toList = first :: others ∧ startsAttribute first = true ∧
    ∀ c ∈ others, continuesAttribute c = true
  small : nameOf a.name.toList = a.name

theorem nameOf_nameOf (written : List Char) : nameOf (nameOf written).toList = nameOf written := by
  rw [nameOf, nameOf, String.toList_ofList, lowercase_idempotent]

/-- A character that a small form brings in belongs to every kind of name. -/
theorem brought_name {d : Char} (h : isAsciiLetter d = true ∨ ¬IsAscii d ∧ isBlank d = false) :
    isTagNameCharacter d = true ∧ startsAttribute d = true ∧ continuesAttribute d = true := by
  rcases h with letter | ⟨above, blank⟩
  · obtain ⟨-, tag, continues, starts, -⟩ :=
      isAsciiAlphanumeric_name (isAsciiLetter_alphanumeric letter)
    exact ⟨tag, starts, continues⟩
  · have other : ∀ c, IsAscii c → (d == c) = false := by
      rintro c ascii
      rw [beq_eq_false_iff_ne]
      rintro rfl
      exact above ascii
    simp only [isTagNameCharacter, startsAttribute, continuesAttribute, blank,
      other '\t' (by decide), other '\n' (by decide), other '\r' (by decide),
      other '\x0c' (by decide), other ' ' (by decide), other '/' (by decide),
      other '>' (by decide), other '\x00' (by decide), other '=' (by decide), Bool.or_self,
      Bool.not_false, and_self]

theorem isTagName_nameOf {c : Char} {rest : List Char} (letter : isAsciiLetter c = true)
    (inside : ∀ d ∈ rest, isTagNameCharacter d = true) : IsTagName (nameOf (c :: rest)) := by
  obtain ⟨first, others, same, start, more⟩ := lowercase_cons c rest
  have text : (nameOf (c :: rest)).toList = first :: others := by
    rw [nameOf, String.toList_ofList, same]
  have first_letter : isAsciiLetter first = true := by
    have ascii := (isAsciiAlphanumeric_name (isAsciiLetter_alphanumeric letter)).1
    have form : smallForm [] c rest = [smallLetter c] := by
      rw [smallForm, if_neg, if_neg]
      · rw [beq_iff_eq]
        rintro rfl
        exact absurd ascii (by decide)
      · rw [beq_iff_eq]
        rintro rfl
        exact absurd ascii (by decide)
    -- a letter becomes one letter, for the characters with a form of their own are not ASCII
    have split : lowercase (c :: rest) = smallLetter c :: lowercaseBehind [c] rest := by
      rw [lowercase, lowercaseBehind, form]
      rfl
    obtain ⟨rfl, -⟩ := List.cons.inj (same.symm.trans split)
    have all : ∀ n < 0x80, isAsciiLetter (Char.ofNat n) = true →
        isAsciiLetter (smallLetter (Char.ofNat n)) = true := by
      decide +kernel
    have here := all c.toNat ascii
    rw [Char.ofNat_toNat] at here
    exact here letter
  refine ⟨⟨first, others, text, first_letter⟩, ?_, nameOf_nameOf _⟩
  rw [text]
  refine List.forall_mem_cons.mpr ⟨(brought_name (Or.inl first_letter)).1, fun d there => ?_⟩
  rcases more d there with own | brought
  · exact inside d own
  · exact (brought_name brought).1

theorem proper_nameOf {c : Char} {rest : List Char} (starts : startsAttribute c = true)
    (continues : ∀ d ∈ rest, continuesAttribute d = true) (value : Option (List Char)) :
    (⟨nameOf (c :: rest), value⟩ : Attribute).Proper := by
  obtain ⟨first, others, same, start, more⟩ := lowercase_cons c rest
  refine ⟨⟨first, others, ?_, ?_, fun d there => ?_⟩, nameOf_nameOf _⟩
  · rw [nameOf, String.toList_ofList, same]
  · rcases start with rfl | brought
    · exact starts
    · exact (brought_name brought).2.1
  · rcases more d there with own | brought
    · exact continues d own
    · exact (brought_name brought).2.2

/-! ## Attributes -/

/-- Where an attribute without a value stands before another one, the name of the other one does not
start with an equals sign, which would give it a value. -/
def Separate (attributes : List Attribute) : Prop :=
  attributes.IsChain fun a b => a.value = none → b.name.toList.head? ≠ some '='

instance : DecidablePred Separate := fun attributes =>
  inferInstanceAs <| Decidable <|
    attributes.IsChain fun a b => a.value = none → b.name.toList.head? ≠ some '='

/-- Some attributes, the end of their tag, and what follows. -/
def attributesTail (attributes : List Attribute) (selfClosing : Bool) (rest : List Char) :
    List Char :=
  attributes.flatMap Attribute.write ++ (if selfClosing then ['/', '>'] else ['>']) ++ rest

/-- An attribute without the space in front of it, and what follows. -/
def Attribute.writeBefore (a : Attribute) (rest : List Char) : List Char :=
  a.name.toList ++ match a.value with
    | none => rest
    | some value => '=' :: '"' :: escapeValue value ++ '"' :: rest

variable {a : Attribute} {attributes : List Attribute} {selfClosing : Bool}

theorem attributesTail_cons (a : Attribute) (others : List Attribute) (selfClosing : Bool)
    (rest : List Char) : attributesTail (a :: others) selfClosing rest =
      ' ' :: a.writeBefore (attributesTail others selfClosing rest) := by
  obtain ⟨name, value⟩ := a
  cases value <;> simp [attributesTail, Attribute.write, Attribute.writeBefore]

theorem Attribute.writeBefore_eq (a : Attribute) (rest : List Char) :
    a.writeBefore rest = a.writeBefore [] ++ rest := by
  obtain ⟨name, value⟩ := a
  cases value <;> simp [writeBefore]

theorem skipSeparators_tagEnd (selfClosing : Bool) (rest : List Char) :
    skipSeparators (attributesTail [] selfClosing rest) = attributesTail [] selfClosing rest := by
  cases selfClosing <;> rfl

/-- The separators in front of an attribute are its space. -/
theorem skipSeparators_attribute (own : a.Proper) (others : List Attribute) (selfClosing : Bool)
    (rest : List Char) : skipSeparators (attributesTail (a :: others) selfClosing rest) =
      a.writeBefore (attributesTail others selfClosing rest) := by
  obtain ⟨first, more, name, starts, -⟩ := own.name
  simp only [startsAttribute, Bool.not_eq_true', Bool.or_eq_false_iff, beq_eq_false_iff_ne]
    at starts
  have stop : ∀ text, skipSeparators (first :: text) = first :: text := by
    intro text
    rw [skipSeparators_cons starts.1.2, starts.1.1]
    rfl
  have space : ∀ text, skipSeparators (' ' :: text) = skipSeparators text := fun _ => rfl
  rw [attributesTail_cons, space, Attribute.writeBefore, name]
  exact stop _

/-- What follows the name of an attribute gives it no value, unless it starts with an equals
sign. -/
theorem readValue_attributesTail (proper : ∀ a ∈ attributes, a.Proper)
    (noSign : ∀ b ∈ attributes.head?, b.name.toList.head? ≠ some '=') (rest : List Char) :
    readValue (attributesTail attributes selfClosing rest) = none := by
  have signs : ∀ c ∈ ((attributesTail attributes selfClosing rest).dropWhile isBlank).head?,
      c ≠ '=' := by
    cases attributes with
    | nil => cases selfClosing <;> simp [attributesTail, isBlank]
    | cons b others =>
        obtain ⟨first, more, name, starts, -⟩ := (proper b List.mem_cons_self).name
        simp only [startsAttribute, Bool.not_eq_true', Bool.or_eq_false_iff] at starts
        have sign := noSign b rfl
        rw [name] at sign
        rw [attributesTail_cons, List.dropWhile_cons_of_pos (by decide), Attribute.writeBefore,
          name, List.cons_append, List.dropWhile_cons_of_neg (by simp [starts.1.1])]
        simpa using sign
  rw [readValue]
  dsimp only
  split
  · next equals =>
      rw [equals] at signs
      exact absurd rfl (signs '=' rfl)
  · rfl

/-- One attribute is read with the separators behind it. -/
theorem readAttribute_writeBefore (own : a.Proper) (others : ∀ b ∈ attributes, b.Proper)
    (apart : Separate (a :: attributes)) {before : Char} (may : mayPrecedeAttribute before = true)
    (rest : List Char) :
    readAttribute before (a.writeBefore (attributesTail attributes selfClosing rest)) =
      some (a, skipSeparators (attributesTail attributes selfClosing rest)) := by
  obtain ⟨⟨first, more, split, starts, inside⟩, small⟩ := own
  obtain ⟨name, value⟩ := a
  dsimp only at split small
  have whole : nameOf (first :: more) = name := by rw [← split, small]
  have span : ∀ behind, (∀ c ∈ behind.head?, continuesAttribute c = false) →
      (more ++ behind).takeWhile continuesAttribute = more ∧
        (more ++ behind).dropWhile continuesAttribute = behind := by
    intro behind ends
    exact longestRun_iff.mp ⟨rfl, inside, ends⟩
  cases value with
  | none =>
      have ends : ∀ c ∈ (attributesTail attributes selfClosing rest).head?,
          continuesAttribute c = false := by
        cases attributes with
        | nil => cases selfClosing <;> simp [attributesTail, continuesAttribute]
        | cons b others =>
            rw [attributesTail_cons]
            simp [continuesAttribute, isBlank]
      -- the blanks behind the name are looked through for an equals sign
      have noValue : readValue (attributesTail attributes selfClosing rest) = none := by
        refine readValue_attributesTail others ?_ rest
        cases attributes with
        | nil => simp
        | cons b _ =>
            rintro _ ⟨⟩
            exact (List.isChain_cons_cons.mp apart).1 rfl
      rw [Attribute.writeBefore, split, List.cons_append, readAttribute]
      simp only [may, starts, Bool.and_self, if_true, span _ ends, whole, noValue]
  | some value =>
      have ends : ∀ behind, ∀ c ∈ (('=' :: behind : List Char)).head?,
          continuesAttribute c = false := by
        simp [continuesAttribute]
      have read := readValue_quoted (Or.inl rfl) (quotation_escapeValue value)
        (attributesTail attributes selfClosing rest)
      rw [Attribute.writeBefore, split, List.cons_append, readAttribute]
      simp only [may, starts, Bool.and_self, if_true, List.cons_append, span _ (ends _), whole]
      simp only [List.cons_append] at read
      simp only [read, resolve_escapeValue]

/-- Attributes are read up to the end of their tag. -/
theorem readAttributes_attributesTail (proper : ∀ a ∈ attributes, a.Proper)
    (apart : Separate attributes) (rest : List Char) {fuel : Nat}
    (enough : attributes.length ≤ fuel) {before : Char}
    (may : attributes ≠ [] → mayPrecedeAttribute before = true) :
    readAttributes fuel before (skipSeparators (attributesTail attributes selfClosing rest)) =
      (attributes, attributesTail [] selfClosing rest) := by
  induction attributes generalizing fuel before with
  | nil =>
      rw [skipSeparators_tagEnd]
      cases fuel with
      | zero => rfl
      | succ fuel =>
          cases selfClosing <;>
            simp [attributesTail, readAttributes, readAttribute, startsAttribute]
  | cons a others ih =>
      have first := proper a List.mem_cons_self
      have more : ∀ b ∈ others, b.Proper := fun b there => proper b (List.mem_cons_of_mem _ there)
      have apart' : Separate others := apart.of_cons
      obtain ⟨fuel, rfl⟩ : ∃ less, fuel = less + 1 :=
        ⟨fuel - 1, by rw [List.length_cons] at enough; omega⟩
      rw [skipSeparators_attribute first, readAttributes,
        readAttribute_writeBefore first more apart (may (by simp))]
      dsimp only
      rw [ih more apart' (by rw [List.length_cons] at enough; omega)]
      intro some
      obtain ⟨b, later, rfl⟩ := List.exists_cons_of_ne_nil some
      -- the last character before the next attribute is its space
      have last : a.writeBefore (attributesTail (b :: later) selfClosing rest) =
          a.writeBefore [] ++ [' '] ++
            skipSeparators (attributesTail (b :: later) selfClosing rest) := by
        rw [skipSeparators_attribute (more b List.mem_cons_self), a.writeBefore_eq,
          attributesTail_cons]
        simp
      rw [last, lastBefore_append, List.getLast?_concat]
      rfl

/-! ## Start tags -/

/-- The characters of a start tag behind its bracket, up to what follows. -/
theorem writeStartTag_append (name : String) (attributes : List Attribute) (selfClosing : Bool)
    (rest : List Char) : writeStartTag name attributes selfClosing ++ rest =
      '<' :: (name.toList ++
        attributesTail attributes (selfClosing && !voidElements.contains name) rest) := by
  simp [writeStartTag, attributesTail]

theorem length_attributesTail (attributes : List Attribute) (selfClosing : Bool)
    (rest : List Char) :
    attributes.length < (attributesTail attributes selfClosing rest).length := by
  induction attributes with
  | nil => cases selfClosing <;> simp [attributesTail]
  | cons a others ih =>
      rw [attributesTail_cons, Attribute.writeBefore_eq]
      simp only [List.length_cons, List.length_append]
      omega

/-- A start tag is read with its name, its attributes and its ending. -/
theorem readStartTag_attributesTail {name : String} (isName : IsTagName name)
    (proper : ∀ a ∈ attributes, a.Proper) (apart : Separate attributes) (selfClosing : Bool)
    (rest : List Char) :
    readStartTag (name.toList ++ attributesTail attributes selfClosing rest) =
      .complete name attributes selfClosing rest := by
  have ends : ∀ c ∈ (attributesTail attributes selfClosing rest).head?,
      isTagNameCharacter c = false := by
    cases attributes with
    | nil => cases selfClosing <;> simp [attributesTail, isTagNameCharacter]
    | cons a others =>
        rw [attributesTail_cons]
        simp [isTagNameCharacter]
  have span := longestRun_iff.mp ⟨rfl, isName.inside, ends⟩
  have long := length_attributesTail attributes selfClosing rest
  -- every attribute takes up a character, so the reader does not stop before the last one
  have size : attributes.length ≤
      (skipSeparators (attributesTail attributes selfClosing rest)).length := by
    cases attributes with
    | nil => exact Nat.zero_le _
    | cons a others =>
        rw [attributesTail_cons, List.length_cons] at long
        rw [skipSeparators_attribute (proper a List.mem_cons_self)]
        exact Nat.lt_succ_iff.mp long
  rw [readStartTag]
  simp only [span]
  rw [readAttributes_attributesTail proper apart rest size]
  · rw [attributesTail]
    cases selfClosing <;> simp [isName.small]
  intro some
  obtain ⟨a, others, rfl⟩ := List.exists_cons_of_ne_nil some
  have taken : (attributesTail (a :: others) selfClosing rest).take
      ((attributesTail (a :: others) selfClosing rest).length -
        (skipSeparators (attributesTail (a :: others) selfClosing rest)).length) = [' '] := by
    rw [skipSeparators_attribute (proper a List.mem_cons_self), attributesTail_cons,
      List.length_cons, Nat.add_sub_cancel_left]
    rfl
  rw [taken, List.getLast?_concat]
  rfl

/-- The mode behind a start tag as it is read. -/
def modeBehind (name : String) (selfClosing : Bool) : Mode :=
  if !selfClosing && rawTextElements.contains name then .raw name else .markup

theorem readPiece_writeStartTag (final : Bool) {name : String} (isName : IsTagName name)
    (proper : ∀ a ∈ attributes, a.Proper) (apart : Separate attributes) (selfClosing : Bool)
    (rest : List Char) :
    readPiece final .markup (writeStartTag name attributes selfClosing ++ rest) =
      .upTo (writeStartTag name attributes selfClosing ++ rest) rest
        (some (.startTag name attributes (selfClosing && !voidElements.contains name)))
        (modeBehind name (selfClosing && !voidElements.contains name)) := by
  rw [writeStartTag_append]
  generalize (selfClosing && !voidElements.contains name) = closes
  have read := readStartTag_attributesTail isName proper apart closes rest
  obtain ⟨first, others, split, letter⟩ := isName.letter
  rw [readPiece_bracket, readBracket, List.drop_succ_cons, List.drop_zero]
  rw [split] at read ⊢
  simp only [List.cons_append, letter, if_true] at read ⊢
  rw [readOpening, List.drop_succ_cons, List.drop_zero, read]
  rfl

/-! ## End tags -/

/-- The name of an end tag is read as it stands, or not at all where it has a character that such
names do not have. -/
theorem readEndTag_name {name : String} (isName : IsTagName name)
    (noBlank : ∀ c ∈ name.toList.getLast?, isBlank c = false) (rest : List Char) :
    readEndTag (name.toList ++ '>' :: rest) = some (name, rest) ∨
      readEndTag (name.toList ++ '>' :: rest) = none := by
  obtain ⟨first, others, split, letter⟩ := isName.letter
  have plain := isAsciiAlphanumeric_name (isAsciiLetter_alphanumeric letter)
  have front : (first :: (others ++ '>' :: rest)).dropWhile isBlank =
      first :: (others ++ '>' :: rest) :=
    List.dropWhile_cons_of_neg (by simp [plain.2.2.2.2.2.1])
  obtain ⟨whole, inside, -⟩ := longestRun_takeWhile isEndNameCharacter others
  generalize others.takeWhile isEndNameCharacter = run at whole inside
  generalize behind : others.dropWhile isEndNameCharacter = tail at whole
  have span : (others ++ '>' :: rest).takeWhile isEndNameCharacter = run ∧
      (others ++ '>' :: rest).dropWhile isEndNameCharacter = tail ++ '>' :: rest := by
    refine longestRun_iff.mp ⟨by rw [whole, List.append_assoc], inside, ?_⟩
    have stop := List.head?_dropWhile_not isEndNameCharacter others
    rw [behind] at stop
    cases tail with
    | nil => simp [isEndNameCharacter, isAsciiAlphanumeric, isAsciiLetter, isAsciiDigit]
    | cons c tail => simpa using stop
  rw [split, List.cons_append, readEndTag, front]
  simp only [letter, if_true, span]
  cases tail with
  | nil =>
      rw [List.append_nil] at whole
      have same : nameOf (first :: run) = name := by
        rw [← whole, ← split]
        exact isName.small
      have close : ('>' :: rest).dropWhile isBlank = '>' :: rest :=
        List.dropWhile_cons_of_neg (by decide)
      rw [List.nil_append, close, same]
      exact Or.inl rfl
  | cons c tail =>
      -- the last character of the name is no blank, so one before the bracket is left
      right
      have last : ∀ d ∈ (c :: tail).getLast?, isBlank d = false := by
        intro d there
        refine noBlank d ?_
        rw [split, whole, ← List.cons_append, List.getLast?_append, there]
        rfl
      have left : ((c :: tail).dropWhile isBlank) ≠ [] := by
        intro none
        rw [List.dropWhile_eq_nil_iff] at none
        have ends := List.getLast?_eq_some_getLast (List.cons_ne_nil c tail)
        have blank := none _ (List.getLast_mem (List.cons_ne_nil c tail))
        rw [last _ ends] at blank
        cases blank
      obtain ⟨d, more, found⟩ := List.exists_cons_of_ne_nil left
      have there : d ∈ name.toList := by
        rw [split, whole]
        refine List.mem_cons_of_mem _ (List.mem_append_right _ ?_)
        exact (List.dropWhile_suffix _).subset (found ▸ List.mem_cons_self)
      have other : d ≠ '>' := by
        rintro rfl
        have held := isName.inside _ there
        simp [isTagNameCharacter] at held
      rw [List.dropWhile_append, found]
      simp only [List.isEmpty_cons, Bool.false_eq_true, if_false, List.cons_append]
      split
      · next same => exact absurd (List.cons.inj same).1 other
      · rfl

/-- An end tag is read again, unless a blank stands at the end of its name. -/
theorem readPiece_endTag (final : Bool) {name : String} (isName : IsTagName name)
    (noBlank : ∀ c ∈ name.toList.getLast?, isBlank c = false) (rest : List Char) :
    readPiece final .markup ('<' :: '/' :: (name.toList ++ '>' :: rest)) =
      .upTo ('<' :: '/' :: (name.toList ++ '>' :: rest)) rest (some (.endTag name)) .markup := by
  obtain ⟨first, others, split, letter⟩ := isName.letter
  have noBracket : '>' ∉ name.toList := by
    intro there
    have held := isName.inside _ there
    simp [isTagNameCharacter] at held
  have span : (name.toList ++ '>' :: rest).takeWhile isTagNameCharacter = name.toList ∧
      (name.toList ++ '>' :: rest).dropWhile isTagNameCharacter = '>' :: rest :=
    longestRun_iff.mp ⟨rfl, isName.inside, by simp [isTagNameCharacter]⟩
  have after : afterBracket ('>' :: rest) = rest := rfl
  rw [readPiece_bracket, readBracket, List.drop_succ_cons, List.drop_zero]
  simp only [show isAsciiLetter '/' = false from rfl, Bool.false_eq_true, if_false,
    beq_self_eq_true, if_true]
  rw [readClosing, List.drop_succ_cons, List.drop_succ_cons, List.drop_zero,
    upToBracket?_append noBracket]
  dsimp only
  -- what the strict reader does not take is read as a tag name, which comes to the same
  rcases readEndTag_name isName noBlank rest with read | read
  · rw [read]
  · rw [read, span.1, span.2, after, isName.small, split]
    simp only [List.cons_append, letter, if_true]

end MessageCatalog.Markup
