import MessageCatalog.Markup.Tokenizer
import MessageCatalog.Proofs.Text.Lowercase

/-!
# MessageCatalog.Proofs.Markup.StartTag -- written tags are read as they were

A name of small ASCII letters and digits is read as it stands, as the name of an element or of an
attribute, and so is everything that ends it. A name that is one in small letters, however it is
written, has been read in small letters and is that name.

A start tag is written as its name and, behind a space each, its attributes with a quoted value. It
is read to its end whatever follows: no quote stands inside a value, so every value ends where it
was closed, and what stands between two attributes is one space.
-/

namespace MessageCatalog.Markup

open MessageCatalog.Text

/-! ## Names -/

/-- A name of small ASCII letters and digits, a letter first. -/
def IsName (name : String) : Prop :=
  (∃ first others, name.toList = first :: others ∧ isAsciiLetter first = true) ∧
    ∀ c ∈ name.toList, isAsciiAlphanumeric c = true ∧ IsSmall c

instance (name : String) : Decidable (IsName name) :=
  decidable_of_iff (name.toList.head?.any isAsciiLetter = true ∧
      name.toList.all (fun c => isAsciiAlphanumeric c && decide (IsSmall c)) = true) <| by
    refine and_congr ?_ (by simp)
    cases name.toList <;> simp

/-- A letter or digit is a character of every kind of name, and ends no name. -/
theorem isAsciiAlphanumeric_name {c : Char} (h : isAsciiAlphanumeric c = true) :
    IsAscii c ∧ isTagNameCharacter c = true ∧ continuesAttribute c = true ∧
      startsAttribute c = true ∧ isEndNameCharacter c = true ∧ isBlank c = false ∧ c ≠ '/' := by
  have ascii : IsAscii c := by
    simp only [isAsciiAlphanumeric, isAsciiLetter, isAsciiDigit, Bool.or_eq_true, Bool.and_eq_true,
      decide_eq_true_eq] at h
    rcases h with (h | h) | h <;> exact Nat.lt_of_le_of_lt (show c.toNat ≤ _ from h.2) (by decide)
  have all : ∀ n < 0x80, isAsciiAlphanumeric (Char.ofNat n) = true →
      isTagNameCharacter (Char.ofNat n) = true ∧ continuesAttribute (Char.ofNat n) = true ∧
        startsAttribute (Char.ofNat n) = true ∧ isEndNameCharacter (Char.ofNat n) = true ∧
          isBlank (Char.ofNat n) = false ∧ Char.ofNat n ≠ '/' := by
    decide +kernel
  refine ⟨ascii, ?_⟩
  have here := all c.toNat ascii
  rw [Char.ofNat_toNat] at here
  exact here h

theorem isAsciiLetter_alphanumeric {c : Char} (h : isAsciiLetter c = true) :
    isAsciiAlphanumeric c = true := by
  rw [isAsciiAlphanumeric, h, Bool.true_or]

namespace IsName

variable {name : String}

theorem nameOf_eq (h : IsName name) : nameOf name.toList = name := by
  have small : ∀ c ∈ name.toList, IsAscii c ∧ IsSmall c := fun c there =>
    ⟨(isAsciiAlphanumeric_name (h.2 c there).1).1, (h.2 c there).2⟩
  rw [nameOf, lowercase_of_isAscii small, String.ofList_toList]

/-- A name that was read and is a name in small letters is that name. -/
theorem of_nameOf (isRead : ∃ written, name = nameOf written)
    (h : IsName (nameOf name.toList)) : nameOf name.toList = name := by
  obtain ⟨written, rfl⟩ := isRead
  have ascii : ∀ d ∈ lowercase (lowercase written), IsAscii d := by
    intro d there
    have held := h.2 d
    rw [nameOf, nameOf, String.toList_ofList, String.toList_ofList] at held
    exact (isAsciiAlphanumeric_name (held there).1).1
  rw [nameOf, nameOf, String.toList_ofList, lowercase_lowercase ascii]

/-- A name is the whole of the run of characters that it belongs to. -/
theorem span (h : IsName name) {inClass : Char → Bool}
    (all : ∀ c, isAsciiAlphanumeric c = true → inClass c = true) {rest : List Char}
    (ends : ∀ c ∈ rest.head?, inClass c = false) :
    (name.toList ++ rest).takeWhile inClass = name.toList ∧
      (name.toList ++ rest).dropWhile inClass = rest := by
  have inside : ∀ c ∈ name.toList, inClass c = true := fun c there => all c (h.2 c there).1
  rw [List.takeWhile_append_of_pos inside, List.dropWhile_append_of_pos inside]
  cases rest with
  | nil => simp
  | cons c rest =>
      have stop : inClass c = false := ends c (by simp)
      simp [stop]

end IsName

/-! ## Written attributes -/

/-- An attribute as it is written: a name and a quoted text. -/
structure WrittenAttribute where
  name : String
  quote : Char
  inside : List Char
  deriving DecidableEq

namespace WrittenAttribute

/-- An attribute with a proper name, whose quote does not stand inside it. -/
structure Proper (a : WrittenAttribute) : Prop where
  name : IsName a.name
  quote : a.quote = '"' ∨ a.quote = '\''
  apart : a.quote ∉ a.inside

/-- An attribute behind its space. -/
def text (a : WrittenAttribute) : List Char :=
  ' ' :: a.name.toList ++ '=' :: a.quote :: a.inside ++ [a.quote]

/-- An attribute as it is read. -/
def read (a : WrittenAttribute) : Attribute := ⟨a.name, some (resolve a.inside)⟩

end WrittenAttribute

/-! ## Values -/

theorem closeQuote_inside {quote : Char} {inside : List Char} (h : quote ∉ inside)
    (rest : List Char) : closeQuote quote (inside ++ quote :: rest) = some (inside, rest) := by
  have other : ∀ c ∈ inside, (c != quote) = true := by
    intro c there
    rw [bne_iff_ne]
    rintro rfl
    exact h there
  rw [closeQuote, List.dropWhile_append_of_pos other, List.takeWhile_append_of_pos other]
  simp

theorem readValue_quoted {quote : Char} {inside : List Char}
    (isQuote : quote = '"' ∨ quote = '\'') (h : quote ∉ inside) (rest : List Char) :
    readValue ('=' :: quote :: inside ++ quote :: rest) = some (inside, rest) := by
  have closed := closeQuote_inside h rest
  have signs : ∀ text, ('=' :: text).dropWhile isBlank = '=' :: text := by
    intro text
    rw [List.dropWhile_cons_of_neg (by decide)]
  have spaced : ∀ text, ('=' :: quote :: text).dropWhile (· == '=') = quote :: text := by
    intro text
    rcases isQuote with rfl | rfl <;> simp
  have value : ∀ text, (quote :: text).dropWhile isBlank = quote :: text := by
    intro text
    rcases isQuote with rfl | rfl <;> rw [List.dropWhile_cons_of_neg (by decide)]
  have quoted : (quote == '\'' || quote == '"') = true := by
    rcases isQuote with rfl | rfl <;> rfl
  rw [List.cons_append, List.cons_append, readValue]
  simp only [signs, spaced, value, quoted, if_true, closed]

/-! ## Attributes -/

theorem skipSeparators_cons {c : Char} (other : c ≠ '/') (rest : List Char) :
    skipSeparators (c :: rest) = if isBlank c then skipSeparators rest else c :: rest := by
  rw [skipSeparators.eq_def]
  split
  · next same => cases same
  · next same => exact absurd (List.cons.inj same).1 other
  · next same =>
      obtain ⟨rfl, rfl⟩ := List.cons.inj same
      rfl

theorem lastBefore_append (before : Char) (taken rest : List Char) :
    lastBefore before (taken ++ rest) rest = taken.getLast?.getD before := by
  rw [lastBefore, List.length_append, Nat.add_sub_cancel, List.take_left]

/-- The text of some attributes and the end of their tag. -/
def attributesText (attributes : List WrittenAttribute) (rest : List Char) : List Char :=
  attributes.flatMap WrittenAttribute.text ++ '>' :: rest

variable {a : WrittenAttribute} {attributes : List WrittenAttribute}

theorem skipSeparators_attributes (proper : ∀ a ∈ attributes, a.Proper) (rest : List Char) :
    attributesText attributes rest =
      (if attributes.isEmpty then [] else [' ']) ++
        skipSeparators (attributesText attributes rest) := by
  cases attributes with
  | nil => rfl
  | cons a others =>
      obtain ⟨⟨first, more, name, letter⟩, _⟩ := (proper a List.mem_cons_self).name
      have plain := isAsciiAlphanumeric_name (isAsciiLetter_alphanumeric letter)
      have stop : ∀ text, skipSeparators (first :: text) = first :: text := by
        intro text
        rw [skipSeparators_cons plain.2.2.2.2.2.2, plain.2.2.2.2.2.1]
        rfl
      have space : ∀ text, skipSeparators (' ' :: text) = skipSeparators text := fun text => rfl
      simp [attributesText, WrittenAttribute.text, name, space, stop]

/-- One attribute is read with the separators behind it. -/
theorem readAttribute_text (proper : a.Proper) {before : Char}
    (may : mayPrecedeAttribute before = true) (rest : List Char) :
    readAttribute before (a.name.toList ++ '=' :: a.quote :: a.inside ++ a.quote :: rest) =
      some (a.read, skipSeparators rest) := by
  obtain ⟨⟨first, more, name, letter⟩, all⟩ := proper.name
  have plain := isAsciiAlphanumeric_name (isAsciiLetter_alphanumeric letter)
  have span : (more ++ '=' :: a.quote :: a.inside ++ a.quote :: rest).takeWhile continuesAttribute =
        more ∧
      (more ++ '=' :: a.quote :: a.inside ++ a.quote :: rest).dropWhile continuesAttribute =
        '=' :: a.quote :: a.inside ++ a.quote :: rest := by
    have inside : ∀ c ∈ more, continuesAttribute c = true := fun c there =>
      (isAsciiAlphanumeric_name (all c (by rw [name]; exact List.mem_cons_of_mem _ there)).1).2.2.1
    rw [List.append_assoc, List.takeWhile_append_of_pos inside, List.dropWhile_append_of_pos inside]
    simp [show continuesAttribute '=' = false from rfl]
  have whole : nameOf (first :: more) = a.name := by
    rw [← name]
    exact proper.name.nameOf_eq
  rw [name, List.cons_append, List.cons_append, readAttribute]
  simp only [may, plain.2.2.2.1, Bool.and_self, if_true, span, whole,
    readValue_quoted proper.quote proper.apart]
  rfl

/-- Attributes are read up to the end of their tag. -/
theorem readAttributes_text (proper : ∀ a ∈ attributes, a.Proper) (rest : List Char) {fuel : Nat}
    (enough : attributes.length ≤ fuel) {before : Char}
    (may : attributes ≠ [] → mayPrecedeAttribute before = true) :
    readAttributes fuel before (skipSeparators (attributesText attributes rest)) =
      (attributes.map WrittenAttribute.read, '>' :: rest) := by
  induction attributes generalizing fuel before with
  | nil =>
      have stop : skipSeparators (attributesText [] rest) = '>' :: rest := rfl
      rw [stop]
      cases fuel with
      | zero => rfl
      | succ fuel => simp [readAttributes, readAttribute, show startsAttribute '>' = false from rfl]
  | cons a others ih =>
      have first := proper a List.mem_cons_self
      have more : ∀ b ∈ others, b.Proper := fun b there => proper b (List.mem_cons_of_mem _ there)
      obtain ⟨fuel, rfl⟩ : ∃ less, fuel = less + 1 :=
        ⟨fuel - 1, by rw [List.length_cons] at enough; omega⟩
      have start := skipSeparators_attributes proper rest
      have behind := skipSeparators_attributes more rest
      -- the text of the first attribute, without its space, and what follows
      have split : skipSeparators (attributesText (a :: others) rest) =
          a.name.toList ++ '=' :: a.quote :: a.inside ++ a.quote :: attributesText others rest := by
        refine List.append_cancel_left (start.symm.trans ?_)
        simp [attributesText, WrittenAttribute.text]
      rw [split, readAttributes, readAttribute_text first (may (by simp))]
      dsimp only
      rw [ih more (by rw [List.length_cons] at enough; omega)]
      · rfl
      intro some
      have last : a.name.toList ++ '=' :: a.quote :: a.inside ++ a.quote :: attributesText others rest =
          (a.name.toList ++ '=' :: a.quote :: a.inside ++ [a.quote] ++ [' ']) ++
            skipSeparators (attributesText others rest) := by
        generalize skipSeparators (attributesText others rest) = tail at behind ⊢
        rw [behind]
        simp [some]
      rw [last, lastBefore_append, List.getLast?_concat]
      rfl

/-! ## Tags -/

/-- The text of a start tag behind its bracket, and what follows. -/
def startTagText (name : String) (attributes : List WrittenAttribute) (rest : List Char) :
    List Char :=
  name.toList ++ attributesText attributes rest

/-- A written start tag is read to its end. -/
theorem readStartTag_text {name : String} (isName : IsName name)
    (proper : ∀ a ∈ attributes, a.Proper) (rest : List Char) :
    readStartTag (startTagText name attributes rest) =
      .complete name (attributes.map WrittenAttribute.read) false rest := by
  have ends : ∀ c ∈ (attributesText attributes rest).head?, isTagNameCharacter c = false := by
    cases attributes <;> simp [attributesText, WrittenAttribute.text, isTagNameCharacter]
  have span := isName.span (fun c h => (isAsciiAlphanumeric_name h).2.1) ends
  have start := skipSeparators_attributes proper rest
  have enough : attributes.length ≤ (skipSeparators (attributesText attributes rest)).length := by
    have long : 2 * attributes.length + 1 ≤ (attributesText attributes rest).length := by
      -- an attribute takes at least a space and an equals sign
      clear start span ends
      induction attributes with
      | nil => simp [attributesText]
      | cons a others ih =>
          have := ih fun b there => proper b (List.mem_cons_of_mem _ there)
          simp only [attributesText, List.flatMap_cons, List.length_append, List.length_cons,
            WrittenAttribute.text] at this ⊢
          omega
    rw [start] at long
    simp only [List.length_append] at long
    split at long <;> simp at long <;> omega
  rw [startTagText, readStartTag]
  simp only [span]
  rw [readAttributes_text proper rest enough]
  · simp only [isName.nameOf_eq]
  intro some
  have taken : (attributesText attributes rest).take ((attributesText attributes rest).length -
      (skipSeparators (attributesText attributes rest)).length) = [' '] := by
    generalize skipSeparators (attributesText attributes rest) = tail at start ⊢
    rw [start]
    simp [some]
  rw [taken, List.getLast?_concat]
  rfl

end MessageCatalog.Markup
