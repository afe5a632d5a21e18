import Mathlib.Data.List.Basic
import MessageCatalog.Json.Reader
import MessageCatalog.Json.Writer
import MessageCatalog.Proofs.Number.Written

/-!
# MessageCatalog.Proofs.Json.Quoted -- texts are read from what they are written as

Inside its quotes a text is written character by character, and each character is read as its code
point. No character is a surrogate, so the code points are joined to the characters that they came
from.
-/

namespace MessageCatalog.Json

open MessageCatalog.Number MessageCatalog.Text

/-! ## Code points -/

/-- A character is no surrogate. -/
theorem not_surrogate (c : Char) :
    isHighSurrogate c.toNat = false ∧ isLowSurrogate c.toNat = false := by
  have valid : c.toNat < 0xd800 ∨ (0xdfff < c.toNat ∧ c.toNat < 0x110000) := c.valid
  simp only [isHighSurrogate, isLowSurrogate, Bool.and_eq_false_iff, decide_eq_false_iff_not]
  omega

/-- The code point of a character is joined to it, whatever stands behind. -/
theorem joinSurrogatesWith_cons (lone : Nat → Option Char) (c : Char) (codes : List Nat) :
    joinSurrogatesWith lone (c.toNat :: codes) =
      (joinSurrogatesWith lone codes).map (c :: ·) := by
  obtain ⟨notHigh, notLow⟩ := not_surrogate c
  cases codes with
  | nil => simp [joinSurrogatesWith, notHigh, notLow]
  | cons next rest => simp [joinSurrogatesWith, notHigh, notLow]

/-- The code points of a text are joined to it. -/
theorem joinSurrogatesWith_toNat (lone : Nat → Option Char) (text : List Char) :
    joinSurrogatesWith lone (text.map Char.toNat) = some text := by
  induction text with
  | nil => rfl
  | cons c rest ih => rw [List.map_cons, joinSurrogatesWith_cons, ih, Option.map_some]

/-! ## Characters -/

/-- How a character is written: behind a backslash by a letter or by its code point, or as it is. -/
theorem escapeChar_cases (c : Char) :
    (∃ letter, escapeChar c = ['\\', letter] ∧ simpleEscape? letter = some c) ∨
      (escapeChar c = '\\' :: 'u' :: hexNumeral 4 c.toNat ∧ c.toNat < 0x20) ∨
      (escapeChar c = [c] ∧ c ≠ '"' ∧ c ≠ '\\' ∧ 0x20 ≤ c.toNat) := by
  have letter : ∀ d letter, simpleEscape? letter = some d → (c == d) = true →
      ∃ mark, ['\\', letter] = ['\\', mark] ∧ simpleEscape? mark = some c := by
    intro d letter escape same
    rw [eq_of_beq same]
    exact ⟨letter, rfl, escape⟩
  unfold escapeChar
  split
  · next same => exact Or.inl (letter _ '"' rfl same)
  next notQuote =>
  split
  · next same => exact Or.inl (letter _ '\\' rfl same)
  next notBackslash =>
  split
  · next same => exact Or.inl (letter _ 'n' rfl same)
  split
  · next same => exact Or.inl (letter _ 'r' rfl same)
  split
  · next same => exact Or.inl (letter _ 't' rfl same)
  split
  · next same => exact Or.inl (letter _ 'f' rfl same)
  split
  · next same => exact Or.inl (letter _ 'b' rfl same)
  split
  · next control => exact Or.inr (Or.inl ⟨rfl, control⟩)
  · next plain =>
    exact Or.inr (Or.inr ⟨rfl, by simpa using notQuote, by simpa using notBackslash,
      Nat.le_of_not_lt plain⟩)

theorem unicodeEscape?_append {digits : List Char} (four : digits.length = 4)
    (all : ∀ d ∈ digits, isHexDigit d = true) (c : Char) (rest : List Char) :
    unicodeEscape? (digits ++ c :: rest) = some (numeral 16 digits) := by
  obtain ⟨w, x, y, z, rfl⟩ := List.length_eq_four.mp four
  have every : isHexDigit w && isHexDigit x && isHexDigit y && isHexDigit z := by
    simp [all w, all x, all y, all z]
  exact if_pos every

variable (opening : Nat) (rest : List Char)

theorem readCodes_letter {letter c : Char} (escape : simpleEscape? letter = some c) :
    readCodes opening ('\\' :: letter :: rest) =
      (readCodes opening rest).map fun (codes, rest) => (c.toNat :: codes, rest) := by
  have other : letter ≠ 'u' := by
    rintro rfl
    cases escape
  rw [readCodes, escape]
  exact other

theorem readCodes_unicode {n : Nat} (fits : n < 0x10000) (d : Char) :
    readCodes opening ('\\' :: 'u' :: (hexNumeral 4 n ++ d :: rest)) =
      (readCodes opening (d :: rest)).map fun (codes, rest) => (n :: codes, rest) := by
  have behind : (hexNumeral 4 n ++ d :: rest).drop 4 = d :: rest :=
    List.drop_left' (length_hexNumeral 4 n)
  rw [readCodes, unicodeEscape?_append (length_hexNumeral 4 n)
    (fun _ => isHexDigit_of_mem_hexNumeral), numeral_hexNumeral fits, behind]

theorem readCodes_plain {c : Char} (notQuote : c ≠ '"') (notBackslash : c ≠ '\\')
    (plain : 0x20 ≤ c.toNat) :
    readCodes opening (c :: rest) =
      (readCodes opening rest).map fun (codes, rest) => (c.toNat :: codes, rest) := by
  rw [readCodes, if_neg (Nat.not_lt.mpr plain)]
  · exact notQuote
  · exact fun same _ => notBackslash same
  · exact fun _ same _ => notBackslash same
  · exact fun _ _ same _ => notBackslash same

/-- A character is read from what it is written as, when something stands behind it. -/
theorem readCodes_escapeChar (c d : Char) :
    readCodes opening (escapeChar c ++ d :: rest) =
      (readCodes opening (d :: rest)).map fun (codes, rest) => (c.toNat :: codes, rest) := by
  rcases escapeChar_cases c with ⟨letter, form, escape⟩ | ⟨form, control⟩ | ⟨form, quote, slash, plain⟩
  · rw [form]
    exact readCodes_letter opening (d :: rest) escape
  · rw [form]
    exact readCodes_unicode opening rest (by omega) d
  · rw [form]
    exact readCodes_plain opening (d :: rest) quote slash plain

/-! ## Texts -/

theorem readCodes_flatMap (text : List Char) :
    readCodes opening (text.flatMap escapeChar ++ '"' :: rest) =
      .ok (text.map Char.toNat, rest) := by
  induction text with
  | nil => rw [List.flatMap_nil, List.nil_append, readCodes, List.map_nil]
  | cons c more ih =>
      -- something stands behind the character: more of the text or the quote
      obtain ⟨d, others, next⟩ : ∃ d others, more.flatMap escapeChar ++ '"' :: rest = d :: others :=
        List.exists_cons_of_ne_nil (by simp)
      rw [List.flatMap_cons, List.append_assoc, next, readCodes_escapeChar, ← next, ih]
      rfl

/-- A text is read as itself, up to its closing quote. -/
theorem readText_writeText (rest : List Char) (s : String) :
    ∃ inner, writeText s ++ rest = '"' :: inner ∧
      ∀ lone opening, readText lone opening inner = .ok (s, rest) := by
  refine ⟨s.toList.flatMap escapeChar ++ '"' :: rest, ?_, fun lone opening => ?_⟩
  · simp [writeText]
  · rw [readText, readCodes_flatMap]
    simp only [joinSurrogatesWith_toNat, String.ofList_toList]

/-- A written text has no carriage return, since all control characters are escaped. -/
theorem return_not_mem_writeText (s : String) : '\r' ∉ writeText s := by
  have one : ∀ c, '\r' ∉ escapeChar c := by
    intro c
    rcases escapeChar_cases c with ⟨letter, form, escape⟩ | ⟨form, -⟩ | ⟨form, -, -, plain⟩
    · rw [form]
      simp only [List.mem_cons, List.not_mem_nil, or_false, not_or]
      refine ⟨by decide, ?_⟩
      rintro rfl
      cases escape
    · rw [form]
      simp only [List.mem_cons, not_or]
      refine ⟨by decide, by decide, fun there => ?_⟩
      cases isHexDigit_of_mem_hexNumeral there
    · rw [form, List.mem_singleton]
      rintro rfl
      exact absurd plain (by decide)
  simp [writeText, one]

end MessageCatalog.Json
