import MessageCatalog.Proofs.Script.Literal

/-!
# MessageCatalog.Proofs.Script.Encoded -- texts written by others and read as literals

A text comes into a script in several spellings: escaped for a page in quotes of either kind, as a
string of JSON, or as a string of JSON in ASCII alone, where a character above U+FFFF is two escapes
of four digits. The reader of literals knows nothing of where a token came from. It takes all four
back to the text, since each spelling is read character by character and the halves of a character
are joined at the end.
-/

namespace MessageCatalog.Json

open MessageCatalog.Number MessageCatalog.Text

/-! ## Characters in halves -/

/-- The surrogate that stands for the upper half of a code point above U+FFFF. -/
def highSurrogate (n : Nat) : Nat := 0xd800 + (n - 0x10000) / 0x400

/-- The surrogate that stands for its lower half. -/
def lowSurrogate (n : Nat) : Nat := 0xdc00 + (n - 0x10000) % 0x400

/-- The code units of 16 bits that a character is written by. -/
def codeUnits (c : Char) : List Nat :=
  if c.toNat < 0x10000 then [c.toNat] else [highSurrogate c.toNat, lowSurrogate c.toNat]

/-- Above U+FFFF the halves are surrogates of the two kinds, and the character is their join. -/
theorem halves {c : Char} (high : 0x10000 ≤ c.toNat) :
    isHighSurrogate (highSurrogate c.toNat) = true ∧ isLowSurrogate (lowSurrogate c.toNat) = true ∧
      joinPair (highSurrogate c.toNat) (lowSurrogate c.toNat) = c := by
  have valid : c.toNat < 0xd800 ∨ (0xdfff < c.toNat ∧ c.toNat < 0x110000) := c.valid
  have upper : 0xd800 ≤ highSurrogate c.toNat ∧ highSurrogate c.toNat < 0xdc00 := by
    unfold highSurrogate
    omega
  have lower : 0xdc00 ≤ lowSurrogate c.toNat ∧ lowSurrogate c.toNat < 0xe000 := by
    unfold lowSurrogate
    omega
  refine ⟨by simpa [isHighSurrogate] using upper, by simpa [isLowSurrogate] using lower, ?_⟩
  · have sum : 0x10000 + (highSurrogate c.toNat - 0xd800) * 0x400 +
        (lowSurrogate c.toNat - 0xdc00) = c.toNat := by
      unfold highSurrogate lowSurrogate
      omega
    rw [joinPair, sum, Char.ofNat_toNat]

theorem joinSurrogatesWith_codeUnits (lone : Nat → Option Char) (c : Char) (codes : List Nat) :
    joinSurrogatesWith lone (codeUnits c ++ codes) =
      (joinSurrogatesWith lone codes).map (c :: ·) := by
  unfold codeUnits
  split
  · exact joinSurrogatesWith_cons lone c codes
  · next high =>
    obtain ⟨first, second, join⟩ := halves (Nat.not_lt.mp high)
    show joinSurrogatesWith lone (highSurrogate c.toNat :: lowSurrogate c.toNat :: codes) = _
    rw [joinSurrogatesWith, first, second, join]
    rfl

/-- The code units of a text are joined to it. -/
theorem joinSurrogatesWith_flatMap (lone : Nat → Option Char) (text : List Char) :
    joinSurrogatesWith lone (text.flatMap codeUnits) = some text := by
  induction text with
  | nil => rfl
  | cons c rest ih => rw [List.flatMap_cons, joinSurrogatesWith_codeUnits, ih, Option.map_some]

/-! ## Strings in ASCII alone -/

/-- The escape of a code unit. -/
def unicodeEscape (unit : Nat) : List Char := '\\' :: 'u' :: hexNumeral 4 unit

/-- One character of a string in ASCII alone. -/
def asciiChar (c : Char) : List Char :=
  if c.toNat < 0x7f then escapeChar c else (codeUnits c).flatMap unicodeEscape

/-- A text as a JSON string in ASCII alone. -/
def writeAscii (s : String) : List Char := '"' :: s.toList.flatMap asciiChar ++ ['"']

theorem ascii_of_isHexDigit {c : Char} (h : isHexDigit c = true) : c.toNat < 0x80 := by
  simp only [isHexDigit, isAsciiDigit, Bool.or_eq_true, Bool.and_eq_true, decide_eq_true_eq] at h
  rcases h with (⟨-, last⟩ | ⟨-, last⟩) | ⟨-, last⟩
  · exact lt_of_le_of_lt (show c.toNat ≤ '9'.toNat from last) (by decide)
  · exact lt_of_le_of_lt (show c.toNat ≤ 'f'.toNat from last) (by decide)
  · exact lt_of_le_of_lt (show c.toNat ≤ 'F'.toNat from last) (by decide)

theorem ascii_of_mem_unicodeEscape {unit : Nat} {c : Char} (there : c ∈ unicodeEscape unit) :
    c.toNat < 0x80 := by
  rcases List.mem_cons.mp there with rfl | there
  · decide
  rcases List.mem_cons.mp there with rfl | digit
  · decide
  · exact ascii_of_isHexDigit (isHexDigit_of_mem_hexNumeral digit)

theorem ascii_of_mem_asciiChar {c d : Char} (there : d ∈ asciiChar c) : d.toNat < 0x80 := by
  unfold asciiChar at there
  split at there
  · next low =>
    rcases escapeChar_cases c with ⟨letter, form, escape⟩ | ⟨form, -⟩ | ⟨form, -⟩
    · have letter : letter.toNat < 0x80 := by
        unfold simpleEscape? at escape
        split at escape
        all_goals cases escape
        all_goals decide
      rw [form] at there
      rcases List.mem_pair.mp there with rfl | rfl
      · decide
      · exact letter
    · rw [form] at there
      exact ascii_of_mem_unicodeEscape there
    · rw [form, List.mem_singleton] at there
      rw [there]
      omega
  · obtain ⟨unit, -, inside⟩ := List.mem_flatMap.mp there
    exact ascii_of_mem_unicodeEscape inside

theorem ascii_of_mem_writeAscii {s : String} {c : Char} (there : c ∈ writeAscii s) :
    c.toNat < 0x80 := by
  have inside : c = '"' ∨ c ∈ s.toList.flatMap asciiChar := by
    simpa [writeAscii, or_comm] using there
  rcases inside with rfl | inside
  · decide
  · obtain ⟨d, -, written⟩ := List.mem_flatMap.mp inside
    exact ascii_of_mem_asciiChar written

end MessageCatalog.Json

namespace MessageCatalog.Script

open MessageCatalog.Json MessageCatalog.Number MessageCatalog.Text

/-! ## Escapes of JSON inside double quotes -/

/-- An escape for one code point is read in one step. -/
theorem reads_backslash {behind : List Char} {code : Nat}
    (escape : ∀ rest, readEscape (behind ++ rest) = .ok ([code], rest)) :
    Reads '"' ('\\' :: behind) [code] where
  short := by simp
  read fuel rest := by
    show readContent '"' (fuel + 1) ('\\' :: (behind ++ rest)) = _
    rw [readContent, escape]
    rfl

theorem reads_letter {letter c : Char} (known : simpleEscape? letter = some c) :
    Reads '"' ['\\', letter] [c.toNat] := by
  refine reads_backslash fun rest => ?_
  unfold simpleEscape? at known
  split at known
  all_goals cases known
  all_goals rfl

theorem reads_unicodeEscape {unit : Nat} (fits : unit < 0x10000) :
    Reads '"' (unicodeEscape unit) [unit] := by
  refine reads_backslash fun rest => ?_
  -- the first digit is no brace, so four digits are read
  obtain ⟨a, b, c, d, digits⟩ := List.length_eq_four.mp (length_hexNumeral 4 unit)
  have first : isHexDigit a = true :=
    isHexDigit_of_mem_hexNumeral (digits ▸ List.mem_cons_self)
  have read : readHex 4 (hexNumeral 4 unit ++ rest) = .ok (unit, rest) :=
    readHex_hexNumeral fits rest
  have unicode : readUnicode (hexNumeral 4 unit ++ rest) = .ok (unit, rest) := by
    rw [digits] at read ⊢
    have brace : a ≠ '\x7b' := by
      rintro rfl
      cases first
    simpa [readUnicode, brace] using read
  show readEscape ('u' :: (hexNumeral 4 unit ++ rest)) = _
  simp [readEscape, controlEscape?, isLineTerminator, isOctalDigit, unicode]

theorem reads_jsonChar (c : Char) : Reads '"' (Json.escapeChar c) [c.toNat] := by
  rcases Json.escapeChar_cases c with ⟨letter, form, known⟩ | ⟨form, control⟩ |
    ⟨form, notQuote, notBackslash, printed⟩
  · rw [form]
    exact reads_letter known
  · rw [form]
    exact reads_unicodeEscape (by omega)
  · have feed : c ≠ '\n' := by
      rintro rfl
      exact absurd printed (by decide)
    have carriage : c ≠ '\r' := by
      rintro rfl
      exact absurd printed (by decide)
    rw [form]
    refine ⟨Nat.le_refl 1, fun fuel rest => ?_⟩
    show readContent '"' (fuel + 1) (c :: rest) = _
    rw [readContent]
    simp [notQuote, notBackslash, feed, carriage]

theorem reads_asciiChar (c : Char) : Reads '"' (asciiChar c) (codeUnits c) := by
  unfold asciiChar
  split
  · next low =>
    have one : codeUnits c = [c.toNat] := if_pos (by omega)
    rw [one]
    exact reads_jsonChar c
  · have below : c.toNat < 0x110000 := by
      have valid : c.toNat < 0xd800 ∨ (0xdfff < c.toNat ∧ c.toNat < 0x110000) := c.valid
      omega
    unfold codeUnits
    split
    · next short =>
      rw [List.flatMap_singleton]
      exact reads_unicodeEscape short
    · have upper : highSurrogate c.toNat < 0x10000 := by
        unfold highSurrogate
        omega
      have lower : lowSurrogate c.toNat < 0x10000 := by
        unfold lowSurrogate
        omega
      exact (reads_unicodeEscape upper).append ((reads_unicodeEscape lower).append Reads.nil)

/-! ## Every spelling -/

/-- A text comes back from each of its spellings: escaped in quotes of either kind, as a JSON string,
and as a JSON string that holds nothing but ASCII. -/
theorem decode_encoded (s : String) :
    decode (quote (escape s.toList)) = .ok s.toList ∧
      decode ('\'' :: escape s.toList ++ ['\'']) = .ok s.toList ∧
      decode (writeText s) = .ok s.toList ∧
      decode (writeAscii s) = .ok s.toList ∧ ∀ c ∈ writeAscii s, c.toNat < 0x80 := by
  have double : IsQuote '"' := .inl rfl
  have points : joinSurrogates? (s.toList.flatMap fun c => [c.toNat]) = some s.toList := by
    rw [← List.map_eq_flatMap]
    exact joinSurrogatesWith_toNat _ s.toList
  refine ⟨decode_quoted double s.toList, decode_quoted (.inr rfl) s.toList, ?_, ?_,
    fun c there => ascii_of_mem_writeAscii there⟩
  · exact (Reads.flatMap reads_jsonChar s.toList).decode double points
  · exact (Reads.flatMap reads_asciiChar s.toList).decode double
      (joinSurrogatesWith_flatMap _ s.toList)

/-- A character above U+FFFF between digits, which the escapes around it leave alone. -/
example : writeAscii "0\x001😀2" = "\"0\\u00001\\ud83d\\ude002\"".toList := by decide +kernel

end MessageCatalog.Script
