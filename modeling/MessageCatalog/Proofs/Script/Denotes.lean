import Mathlib.Data.Nat.Digits.Defs
import MessageCatalog.Proofs.Basic
import MessageCatalog.Proofs.Script.Encoded

/-!
# MessageCatalog.Proofs.Script.Denotes -- which tokens are string literals

The notation of literals stated without a reader: pieces between two quotes of one kind, and the text
whose code units are those of the pieces. A rule of the notation says nothing about the rules tried
before it. An octal escape alone has to ask what follows it, as it takes all the digits that it may;
a line end behind a backslash need not, since a line feed of its own is no piece.

The reader accepts a token just when the notation has a text for it, and returns that text. So a
token has one text at most, however it is cut into pieces.
-/

namespace MessageCatalog.Script

open MessageCatalog.Json MessageCatalog.Text

/-! ## The notation -/

/-- The number that digits write, from the last one on. -/
def valueOf (base : Nat) (digits : List Char) : Nat :=
  Nat.ofDigits base (digits.reverse.map hexValue)

/-- The letters behind a backslash that stand for control characters. -/
def controlLetters : List (Char × Char) :=
  [('b', '\x08'), ('f', '\x0c'), ('n', '\n'), ('r', '\r'), ('t', '\t'), ('v', '\x0b')]

/-- The characters that end a line. -/
def lineEnds : List Char := ['\n', '\r', '\u2028', '\u2029']

/-- How many digits an octal escape may have. -/
def octalLimit (first : Char) : Nat := if first ≤ '3' then 3 else 2

/-- As many octal digits as there are, up to the limit that the first one sets. -/
structure OctalRun (first : Char) (others rest : List Char) : Prop where
  digits : ∀ c ∈ first :: others, isOctalDigit c = true
  short : (first :: others).length ≤ octalLimit first
  longest : (first :: others).length < octalLimit first → ∀ c ∈ rest.head?, isOctalDigit c = false

/-- What stands behind a backslash, the code points that it denotes, and the text behind it. -/
inductive Escape : List Char → List Nat → List Char → Prop where
  | control {letter c : Char} {rest : List Char} :
      (letter, c) ∈ controlLetters → Escape (letter :: rest) [c.toNat] rest
  | octal {first : Char} {others rest : List Char} :
      OctalRun first others rest →
      Escape (first :: (others ++ rest)) [valueOf 8 (first :: others)] rest
  | hexadecimal {digits rest : List Char} :
      digits.length = 2 → (∀ c ∈ digits, isHexDigit c = true) →
      Escape ('x' :: (digits ++ rest)) [valueOf 16 digits] rest
  | unit {digits rest : List Char} :
      digits.length = 4 → (∀ c ∈ digits, isHexDigit c = true) →
      Escape ('u' :: (digits ++ rest)) [valueOf 16 digits] rest
  | point {digits rest : List Char} :
      digits ≠ [] → (∀ c ∈ digits, isHexDigit c = true) → valueOf 16 digits ≤ 0x10ffff →
      Escape ('u' :: '\x7b' :: (digits ++ '\x7d' :: rest)) [valueOf 16 digits] rest
  | twoLineEnds {rest : List Char} : Escape ('\r' :: '\n' :: rest) [] rest
  | lineEnd {c : Char} {rest : List Char} : c ∈ lineEnds → Escape (c :: rest) [] rest
  | other {c : Char} {rest : List Char} :
      c ∉ controlLetters.map Prod.fst → isOctalDigit c = false → c ≠ 'x' → c ≠ 'u' →
      c ∉ lineEnds → Escape (c :: rest) [c.toNat] rest

/-- Pieces up to the closing quote: characters that stand for themselves, and escapes. -/
inductive Content (quote : Char) : List Char → List Nat → List Char → Prop where
  | close {rest : List Char} : Content quote (quote :: rest) [] rest
  | plain {c : Char} {text rest : List Char} {codes : List Nat} :
      c ≠ quote → c ≠ '\\' → c ≠ '\n' → c ≠ '\r' → Content quote text codes rest →
      Content quote (c :: text) (c.toNat :: codes) rest
  | escape {text behind rest : List Char} {codes others : List Nat} :
      Escape text codes behind → Content quote behind others rest →
      Content quote ('\\' :: text) (codes ++ others) rest

/-- The code units of 16 bits that write a code point, a surrogate being one itself. -/
def unitsOf (n : Nat) : List Nat :=
  if n < 0x10000 then [n] else [highSurrogate n, lowSurrogate n]

/-- A token is a literal for a text: pieces between two quotes of one kind, with the code units of the
text. Surrogates of the pieces make up characters of the text, and none of them is left. -/
def Denotes (token text : List Char) : Prop :=
  ∃ quote inside codes, IsQuote quote ∧ token = quote :: inside ∧ Content quote inside codes [] ∧
    text.flatMap codeUnits = codes.flatMap unitsOf

/-! ## Digits -/

theorem numeral_eq_valueOf (base : Nat) (digits : List Char) :
    numeral base digits = valueOf base digits := by
  rw [numeral, valueOf, List.foldl_eq_foldr_reverse]
  induction digits.reverse with
  | nil => rfl
  | cons c rest ih =>
      rw [List.foldr_cons, ih, List.map_cons, Nat.ofDigits_cons]
      ring

theorem hexValue_lt (c : Char) : hexValue c < 16 := by
  unfold hexValue
  split
  · next digit =>
      simp only [isAsciiDigit, Bool.and_eq_true, decide_eq_true_eq] at digit
      have last : c.toNat ≤ '9'.toNat := digit.2
      have : '9'.toNat = 57 ∧ '0'.toNat = 48 := by decide
      omega
  split
  · next letter =>
      simp only [Bool.and_eq_true, decide_eq_true_eq] at letter
      have last : c.toNat ≤ 'f'.toNat := letter.2
      have : 'f'.toNat = 102 ∧ 'a'.toNat = 97 := by decide
      omega
  split
  · next letter =>
      simp only [Bool.and_eq_true, decide_eq_true_eq] at letter
      have last : c.toNat ≤ 'F'.toNat := letter.2
      have : 'F'.toNat = 70 ∧ 'A'.toNat = 65 := by decide
      omega
  · omega

theorem hexValue_octal {c : Char} (octal : isOctalDigit c = true) : hexValue c < 8 := by
  simp only [isOctalDigit, Bool.and_eq_true, decide_eq_true_eq] at octal
  have digit : isAsciiDigit c = true := by
    simp only [isAsciiDigit, Bool.and_eq_true, decide_eq_true_eq]
    exact ⟨octal.1, Char.le_trans octal.2 (by decide)⟩
  have last : c.toNat ≤ '7'.toNat := octal.2
  have codes : '7'.toNat = 55 ∧ '0'.toNat = 48 := by decide
  rw [hexValue, if_pos digit]
  omega

theorem valueOf_lt {base width : Nat} {digits : List Char} (some : 1 < base)
    (short : digits.length ≤ width) (each : ∀ c ∈ digits, hexValue c < base) :
    valueOf base digits < base ^ width := by
  have below : valueOf base digits < base ^ digits.length := by
    have := Nat.ofDigits_lt_base_pow_length (l := digits.reverse.map hexValue) some (by simpa using each)
    simpa [valueOf] using this
  exact Nat.lt_of_lt_of_le below (Nat.pow_le_pow_right (by omega) short)

/-! ## Escapes -/

theorem readHex_iff {count code : Nat} {text rest : List Char} :
    readHex count text = .ok (code, rest) ↔ ∃ digits, text = digits ++ rest ∧
      digits.length = count ∧ (∀ c ∈ digits, isHexDigit c = true) ∧ code = valueOf 16 digits := by
  unfold readHex
  dsimp only
  constructor
  · intro h
    split at h
    · next fits =>
        rw [Bool.and_eq_true, beq_iff_eq, List.all_eq_true] at fits
        cases h
        exact ⟨text.take count, (List.take_append_drop count text).symm, fits.1, fits.2,
          numeral_eq_valueOf 16 _⟩
    · cases h
  · rintro ⟨digits, rfl, rfl, hex, rfl⟩
    rw [List.take_left, List.drop_left, if_pos (by simpa using hex), numeral_eq_valueOf]

theorem readUnicode_sound {code : Nat} {text rest : List Char}
    (h : readUnicode text = .ok (code, rest)) : Escape ('u' :: text) [code] rest := by
  unfold readUnicode at h
  split at h
  · next behind =>
      dsimp only at h
      split at h
      · cases h
      next mark after closed =>
      split at h
      · cases h
      next digits =>
      split at h
      · cases h
      next inside =>
      cases h
      rw [Bool.or_eq_true, not_or, List.isEmpty_iff, Bool.not_eq_true', Bool.not_eq_false,
        List.all_eq_true] at digits
      have brace : mark = '\x7d' := by
        have stop := List.head?_dropWhile_not (fun d => d != '\x7d') behind
        rw [closed] at stop
        simpa using stop
      subst brace
      have split' : behind = behind.takeWhile (· != '\x7d') ++ '\x7d' :: rest := by
        rw [← closed, List.takeWhile_append_dropWhile]
      rw [numeral_eq_valueOf] at inside ⊢
      have escape : Escape ('u' :: '\x7b' :: (behind.takeWhile (· != '\x7d') ++ '\x7d' :: rest))
          [valueOf 16 (behind.takeWhile (· != '\x7d'))] rest :=
        .point digits.1 digits.2 (Nat.le_of_not_lt inside)
      rwa [← split'] at escape
  · obtain ⟨digits, rfl, four, hex, rfl⟩ := readHex_iff.mp h
    exact .unit four hex

theorem isHexDigit_ne_brace {c : Char} (hex : isHexDigit c = true) :
    c ≠ '\x7b' ∧ c ≠ '\x7d' := by
  constructor <;> (rintro rfl; cases hex)

theorem readUnicode_unit {digits : List Char} (rest : List Char) (four : digits.length = 4)
    (hex : ∀ c ∈ digits, isHexDigit c = true) :
    readUnicode (digits ++ rest) = .ok (valueOf 16 digits, rest) := by
  have read : readHex 4 (digits ++ rest) = .ok (valueOf 16 digits, rest) :=
    readHex_iff.mpr ⟨digits, rfl, four, hex, rfl⟩
  unfold readUnicode
  split
  · next behind opened =>
      -- a digit stands first, and no brace
      cases digits with
      | nil => cases four
      | cons c more =>
          have first : c = '\x7b' := (List.cons.inj opened).1
          exact absurd first (isHexDigit_ne_brace (hex c List.mem_cons_self)).1
  · exact read

theorem readUnicode_point {digits : List Char} (rest : List Char) (some : digits ≠ [])
    (hex : ∀ c ∈ digits, isHexDigit c = true) (inside : valueOf 16 digits ≤ 0x10ffff) :
    readUnicode ('\x7b' :: (digits ++ '\x7d' :: rest)) = .ok (valueOf 16 digits, rest) := by
  have open' : ∀ c ∈ digits, (c != '\x7d') = true := fun c there =>
    bne_iff_ne.mpr (isHexDigit_ne_brace (hex c there)).2
  have taken : (digits ++ '\x7d' :: rest).takeWhile (· != '\x7d') = digits := by
    rw [List.takeWhile_append_of_pos open']
    simp
  have dropped : (digits ++ '\x7d' :: rest).dropWhile (· != '\x7d') = '\x7d' :: rest := by
    rw [List.dropWhile_append_of_pos open']
    simp
  have proper : (digits.isEmpty || !digits.all isHexDigit) = false := by
    rw [Bool.or_eq_false_iff, List.isEmpty_eq_false_iff, Bool.not_eq_false', List.all_eq_true]
    exact ⟨some, hex⟩
  unfold readUnicode
  simp only [taken, dropped, proper, numeral_eq_valueOf, Bool.false_eq_true, if_false]
  rw [if_neg (by omega)]

/-! ### Octal escapes -/

theorem octalDigits_run (first : Char) (rest : List Char) (octal : isOctalDigit first = true) :
    ∃ others behind, octalDigits first rest = first :: others ∧ rest = others ++ behind ∧
      OctalRun first others behind := by
  generalize limit : octalLimit first - 1 = size
  have taken : octalDigits first rest = first :: (rest.take size).takeWhile isOctalDigit := by
    rw [octalDigits, ← limit, octalLimit]
    split <;> rfl
  have positive : octalLimit first = size + 1 := by
    rw [← limit, octalLimit]
    split <;> rfl
  generalize run : (rest.take size).takeWhile isOctalDigit = others at taken
  have front : others <+: rest := run ▸ (List.takeWhile_prefix _).trans (List.take_prefix size rest)
  obtain ⟨behind, rfl⟩ := front
  have short : others.length ≤ size := by
    have within := (List.takeWhile_prefix (p := isOctalDigit) (l := (others ++ behind).take size)).length_le
    rw [run, List.length_take] at within
    omega
  refine ⟨others, behind, taken, rfl, ?_, ?_, ?_⟩
  · rw [List.forall_mem_cons]
    exact ⟨octal, fun c there => List.mem_takeWhile_imp (run ▸ there)⟩
  · rw [List.length_cons]
    omega
  · intro less c there
    rw [List.length_cons] at less
    -- what stopped the run stands within the limit
    obtain ⟨tail, rfl⟩ : ∃ tail, behind = c :: tail := List.head?_eq_some_iff.mp there
    by_contra digit
    rw [Bool.not_eq_false] at digit
    have inside : ∀ d ∈ others, isOctalDigit d = true := fun d there =>
      List.mem_takeWhile_imp (run ▸ there)
    have more : (others ++ c :: tail).take size = others ++ c :: tail.take (size - others.length - 1) := by
      rw [List.take_append, List.take_of_length_le short]
      obtain ⟨extra, more⟩ := Nat.exists_eq_add_of_lt (show others.length < size by omega)
      have left : size - others.length = extra + 1 := by omega
      rw [left, List.take_succ_cons]
      congr 2
    rw [more, List.takeWhile_append_of_pos inside, List.takeWhile_cons_of_pos digit] at run
    have lengths := congrArg List.length run
    simp at lengths

/-- No run goes on behind another one at the front of the same text. -/
theorem OctalRun.behind_eq_nil {first : Char} {others between rest : List Char}
    (run : OctalRun first others (between ++ rest))
    (longer : OctalRun first (others ++ between) rest) : between = [] := by
  cases between with
  | nil => rfl
  | cons c between =>
      have limit := longer.short
      have less : (first :: others).length < octalLimit first := by
        simp only [List.length_cons, List.length_append] at limit ⊢
        omega
      have digit : isOctalDigit c = true := longer.digits c (by simp)
      rw [run.longest less c rfl] at digit
      cases digit

theorem octalDigits_eq {first : Char} {others rest : List Char} (run : OctalRun first others rest) :
    octalDigits first (others ++ rest) = first :: others := by
  obtain ⟨more, behind, taken, split, other⟩ :=
    octalDigits_run first (others ++ rest) (run.digits first List.mem_cons_self)
  rw [taken]
  rcases List.append_eq_append_iff.mp split with ⟨between, rfl, rfl⟩ | ⟨between, rfl, rfl⟩
  · rw [run.behind_eq_nil other, List.append_nil]
  · rw [other.behind_eq_nil run, List.append_nil]

/-! ### Any escape -/

theorem controlEscape?_iff {letter c : Char} :
    controlEscape? letter = some c ↔ (letter, c) ∈ controlLetters := by
  unfold controlEscape?
  split <;> simp_all [controlLetters, eq_comm]

theorem controlEscape?_eq_none_iff {letter : Char} :
    controlEscape? letter = none ↔ letter ∉ controlLetters.map Prod.fst := by
  rw [Option.eq_none_iff_forall_ne_some]
  simp only [ne_eq, controlEscape?_iff, List.mem_map, Prod.exists, not_exists, not_and]
  exact ⟨fun h l c there same => h c (same ▸ there), fun h c there => h letter c there rfl⟩

theorem isLineTerminator_iff {c : Char} :
    c = '\r' ∨ isLineTerminator c = true ↔ c ∈ lineEnds := by
  simp [isLineTerminator, lineEnds]
  tauto

theorem readEscape_sound {text rest : List Char} {codes : List Nat}
    (h : readEscape text = .ok (codes, rest)) : Escape text codes rest := by
  unfold readEscape at h
  split at h
  · cases h
  next c behind =>
  split at h
  · next control known =>
      cases h
      exact .control (controlEscape?_iff.mp known)
  next noControl =>
  rw [controlEscape?_eq_none_iff] at noControl
  split at h
  · next carriage =>
      rw [beq_iff_eq] at carriage
      subst carriage
      cases h
      split
      · next feed =>
          obtain ⟨tail, rfl⟩ : ∃ tail, behind = '\n' :: tail :=
            List.head?_eq_some_iff.mp (beq_iff_eq.mp feed)
          exact .twoLineEnds
      · exact .lineEnd (by decide)
  next noCarriage =>
  split at h
  · next ends =>
      cases h
      exact .lineEnd (isLineTerminator_iff.mp (.inr ends))
  next noEnd =>
  split at h
  · next octal =>
      cases h
      obtain ⟨others, left, taken, rfl, run⟩ := octalDigits_run c behind octal
      have escape := Escape.octal run
      rw [taken, List.length_cons, Nat.add_sub_cancel, List.drop_left, numeral_eq_valueOf]
      exact escape
  next noOctal =>
  split at h
  · next letter =>
      rw [beq_iff_eq] at letter
      subst letter
      split at h
      · next code left read =>
          cases h
          obtain ⟨digits, rfl, two, hex, rfl⟩ := readHex_iff.mp read
          exact .hexadecimal two hex
      · cases h
  next noHexadecimal =>
  split at h
  · next letter =>
      rw [beq_iff_eq] at letter
      subst letter
      split at h
      · next code left read =>
          cases h
          exact readUnicode_sound read
      · cases h
  next noUnicode =>
  cases h
  have noLineEnd : c ∉ lineEnds := by
    rw [← isLineTerminator_iff]
    simp_all
  exact .other noControl (by simpa using noOctal) (by simpa using noHexadecimal)
    (by simpa using noUnicode) noLineEnd

/-- An escape is read unless it is half of a longer line end. -/
theorem Escape.read {text rest : List Char} {codes : List Nat} (h : Escape text codes rest)
    (whole : rest.head? ≠ some '\n') : readEscape text = .ok (codes, rest) := by
  -- what is tried first is told apart by the character behind the backslash
  cases h with
  | control known => rw [readEscape, controlEscape?_iff.mpr known]
  | @octal first others _ run =>
      have octal : isOctalDigit first = true := run.digits first List.mem_cons_self
      have noControl : controlEscape? first = none := by
        rw [controlEscape?_eq_none_iff]
        intro there
        simp [controlLetters] at there
        rcases there with rfl | rfl | rfl | rfl | rfl | rfl <;> cases octal
      have noCarriage : (first == '\r') = false := by
        rw [beq_eq_false_iff_ne]
        rintro rfl
        cases octal
      have noEnd : isLineTerminator first = false := by
        rw [← Bool.not_eq_true]
        intro ends
        have there := isLineTerminator_iff.mp (.inr ends)
        simp [lineEnds] at there
        rcases there with rfl | rfl | rfl | rfl <;> cases octal
      rw [readEscape]
      simp only [noControl, noCarriage, noEnd, octal, octalDigits_eq run, List.length_cons,
        Nat.add_sub_cancel, List.drop_left, numeral_eq_valueOf, Bool.false_eq_true, if_false, if_true]
  | @hexadecimal digits _ two hex =>
      have read : readHex 2 (digits ++ rest) = .ok (valueOf 16 digits, rest) :=
        readHex_iff.mpr ⟨digits, rfl, two, hex, rfl⟩
      simp [readEscape, controlEscape?, isLineTerminator, isOctalDigit, read]
  | unit four hex =>
      simp [readEscape, controlEscape?, isLineTerminator, isOctalDigit, readUnicode_unit rest four hex]
  | point some hex inside =>
      simp [readEscape, controlEscape?, isLineTerminator, isOctalDigit,
        readUnicode_point rest some hex inside]
  | twoLineEnds => rfl
  | @lineEnd c _ ends =>
      simp only [lineEnds, List.mem_cons, List.not_mem_nil, or_false] at ends
      rcases ends with rfl | rfl | rfl | rfl
      · rfl
      · simp [readEscape, controlEscape?, whole]
      · rfl
      · rfl
  | @other c _ noControl noOctal noHexadecimal noUnicode noEnd =>
      rw [← isLineTerminator_iff, not_or] at noEnd
      rw [← controlEscape?_eq_none_iff] at noControl
      simp [readEscape, noControl, noEnd, noOctal, noHexadecimal, noUnicode]

theorem Escape.length_lt {text rest : List Char} {codes : List Nat} (h : Escape text codes rest) :
    rest.length < text.length := by
  cases h <;> simp only [List.length_cons, List.length_append] <;> omega

/-- No escape denotes more than a code point. -/
theorem Escape.codes_le {text rest : List Char} {codes : List Nat} (h : Escape text codes rest) :
    ∀ n ∈ codes, n ≤ 0x10ffff := by
  have one : ∀ c : Char, c.toNat ≤ 0x10ffff := fun c => by
    have valid : c.toNat < 0xd800 ∨ (0xdfff < c.toNat ∧ c.toNat < 0x110000) := c.valid
    omega
  have hexadecimal : ∀ {digits : List Char}, digits.length ≤ 4 → valueOf 16 digits < 16 ^ 4 :=
    fun short => valueOf_lt (by decide) short fun c _ => hexValue_lt c
  cases h with
  | control _ | other _ _ _ _ _ => simpa using one _
  | @octal first others _ run =>
      have limit : octalLimit first ≤ 3 := by
        unfold octalLimit
        split <;> decide
      have some : 1 < 8 := by decide
      have below := valueOf_lt some (run.short.trans limit) fun c there =>
        hexValue_octal (run.digits c there)
      rw [List.forall_mem_singleton]
      omega
  | hexadecimal two _ =>
      have below := hexadecimal (Nat.le_of_lt (two ▸ (by decide : 2 < 4)))
      rw [List.forall_mem_singleton]
      omega
  | unit four _ =>
      have below := hexadecimal (Nat.le_of_eq four)
      rw [List.forall_mem_singleton]
      omega
  | point _ _ inside => simpa using inside
  | twoLineEnds | lineEnd _ => simp

/-! ## Contents -/

variable {quote : Char} {text rest : List Char} {codes : List Nat}

theorem readContent_sound {fuel : Nat} (h : readContent quote fuel text = .ok (codes, rest)) :
    Content quote text codes rest := by
  induction fuel generalizing text codes with
  | zero => cases text <;> cases h
  | succ fuel ih =>
      cases text with
      | nil => cases h
      | cons c behind =>
          rw [readContent] at h
          split at h
          · next closing =>
              cases h
              rw [beq_iff_eq.mp closing]
              exact .close
          next noQuote =>
          split at h
          · next mark =>
              rw [beq_iff_eq.mp mark]
              split at h
              · cases h
              next first left escape =>
              obtain ⟨⟨others, after⟩, read, same⟩ := map_eq_ok h
              cases same
              exact .escape (readEscape_sound escape) (ih read)
          next noMark =>
          split at h
          · cases h
          next noEnd =>
          obtain ⟨⟨others, after⟩, read, same⟩ := map_eq_ok h
          cases same
          rw [Bool.or_eq_true, beq_iff_eq, beq_iff_eq, not_or] at noEnd
          exact .plain (by simpa using noQuote) (by simpa using noMark) noEnd.1 noEnd.2 (ih read)

/-- A line feed of its own is no piece. -/
theorem Content.head? (h : Content quote text codes rest) (isQuote : IsQuote quote) :
    text.head? ≠ some '\n' := by
  cases h with
  | close =>
      rcases isQuote with rfl | rfl <;> simp
  | plain _ _ noEnd _ _ => simpa using noEnd
  | escape _ _ => simp

theorem Content.read (h : Content quote text codes rest) (isQuote : IsQuote quote) {fuel : Nat}
    (enough : text.length ≤ fuel) : readContent quote fuel text = .ok (codes, rest) := by
  induction h generalizing fuel with
  | close =>
      obtain ⟨fuel, rfl⟩ : ∃ less, fuel = less + 1 := Nat.exists_eq_succ_of_ne_zero (by
        rintro rfl
        simp at enough)
      simp [readContent]
  | @plain c text rest codes noQuote noMark noFeed noCarriage _ ih =>
      rw [List.length_cons] at enough
      obtain ⟨fuel, rfl⟩ : ∃ less, fuel = less + 1 := ⟨fuel - 1, by omega⟩
      have read := ih (Nat.le_of_succ_le_succ enough)
      simp [readContent, noQuote, noMark, noFeed, noCarriage, read, Except.map]
  | @escape text behind rest codes others escape later ih =>
      rw [List.length_cons] at enough
      obtain ⟨fuel, rfl⟩ : ∃ less, fuel = less + 1 := ⟨fuel - 1, by omega⟩
      have read := ih (Nat.le_of_succ_le_succ (Nat.le_of_lt (Nat.lt_of_le_of_lt
        escape.length_lt (Nat.lt_of_succ_le enough))))
      have mark : ('\\' == quote) = false := by
        rcases isQuote with rfl | rfl <;> rfl
      rw [readContent, mark, escape.read (later.head? isQuote)]
      simp [read, Except.map]

theorem Content.codes_le (h : Content quote text codes rest) : ∀ n ∈ codes, n ≤ 0x10ffff := by
  induction h with
  | close => simp
  | @plain c text rest codes _ _ _ _ _ ih =>
      have valid : c.toNat < 0xd800 ∨ (0xdfff < c.toNat ∧ c.toNat < 0x110000) := c.valid
      rw [List.forall_mem_cons]
      exact ⟨by omega, ih⟩
  | escape escape _ ih =>
      rw [List.forall_mem_append]
      exact ⟨escape.codes_le, ih⟩

/-- The reader of tokens takes what stands between two quotes of one kind. -/
theorem readToken_iff {token : List Char} :
    readToken token = .ok codes ↔
      ∃ quote inside, IsQuote quote ∧ token = quote :: inside ∧ Content quote inside codes [] := by
  constructor
  · intro h
    unfold readToken at h
    split at h
    · cases h
    next c inside =>
    split at h
    · next isQuote =>
        rw [Bool.or_eq_true, beq_iff_eq, beq_iff_eq] at isQuote
        split at h
        · cases h
        · next read =>
            cases h
            exact ⟨c, inside, isQuote, rfl, readContent_sound read⟩
        · cases h
    · cases h
  · rintro ⟨quote, inside, isQuote, rfl, content⟩
    have first : (quote == '"' || quote == '\'') = true := by
      rcases isQuote with rfl | rfl <;> rfl
    have read := content.read isQuote (Nat.le_of_lt (Nat.lt_succ_self inside.length))
    rw [readToken, if_pos first, List.length_cons, read]

/-! ## Code units -/

theorem joinSurrogates?_single {n : Nat} (single : isHighSurrogate n = false)
    (single' : isLowSurrogate n = false) (units : List Nat) :
    joinSurrogates? (n :: units) = (joinSurrogates? units).map (Char.ofNat n :: ·) := by
  cases units <;> simp [joinSurrogates?, joinSurrogatesWith, single, single']

theorem joinSurrogates?_pair {high low : Nat} (first : isHighSurrogate high = true)
    (second : isLowSurrogate low = true) (units : List Nat) :
    joinSurrogates? (high :: low :: units) = (joinSurrogates? units).map (joinPair high low :: ·) := by
  simp [joinSurrogates?, joinSurrogatesWith, first, second]

/-- A surrogate that its partner does not follow is joined to nothing. -/
theorem joinSurrogates?_lone {n : Nat} (surrogate : (isHighSurrogate n || isLowSurrogate n) = true)
    {units : List Nat}
    (alone : isHighSurrogate n = true → ∀ m ∈ units.head?, isLowSurrogate m = false) :
    joinSurrogates? (n :: units) = none := by
  cases units with
  | nil => simp [joinSurrogates?, joinSurrogatesWith, surrogate]
  | cons m rest =>
      have apart : (isHighSurrogate n && isLowSurrogate m) = false := by
        by_cases high : isHighSurrogate n = true
        · simp [alone high m rfl]
        · simp [high]
      simp [joinSurrogates?, joinSurrogatesWith, surrogate, apart]

/-- A code point above U+FFFF is no surrogate. -/
theorem not_surrogate_of_le {n : Nat} (large : 0x10000 ≤ n) :
    isHighSurrogate n = false ∧ isLowSurrogate n = false := by
  simp only [isHighSurrogate, isLowSurrogate, Bool.and_eq_false_iff, decide_eq_false_iff_not]
  omega

theorem unitsOf_of_le {n : Nat} (large : 0x10000 ≤ n) :
    unitsOf n = [highSurrogate n, lowSurrogate n] := if_neg (Nat.not_lt.mpr large)

theorem unitsOf_of_lt {n : Nat} (small : n < 0x10000) : unitsOf n = [n] := if_pos small

/-- The halves of a code point above U+FFFF are surrogates of the two kinds. -/
theorem halves_of_le {n : Nat} (large : 0x10000 ≤ n) (inside : n ≤ 0x10ffff) :
    isHighSurrogate (highSurrogate n) = true ∧ isLowSurrogate (highSurrogate n) = false ∧
      isLowSurrogate (lowSurrogate n) = true ∧
      joinPair (highSurrogate n) (lowSurrogate n) = Char.ofNat n := by
  have upper : 0xd800 ≤ highSurrogate n ∧ highSurrogate n < 0xdc00 := by
    unfold highSurrogate
    omega
  have lower : 0xdc00 ≤ lowSurrogate n ∧ lowSurrogate n < 0xe000 := by
    unfold lowSurrogate
    omega
  have sum : 0x10000 + (highSurrogate n - 0xd800) * 0x400 + (lowSurrogate n - 0xdc00) = n := by
    unfold highSurrogate lowSurrogate
    omega
  refine ⟨by simpa [isHighSurrogate] using upper, ?_, by simpa [isLowSurrogate] using lower,
    by rw [joinPair, sum]⟩
  simp only [isLowSurrogate, Bool.and_eq_false_iff, decide_eq_false_iff_not]
  omega

/-- The first code unit is a low surrogate only where the first code point is. -/
theorem head?_units {codes : List Nat} (inside : ∀ n ∈ codes, n ≤ 0x10ffff)
    (high : ∀ n ∈ codes.head?, isLowSurrogate n = false) :
    ∀ n ∈ (codes.flatMap unitsOf).head?, isLowSurrogate n = false := by
  cases codes with
  | nil => simp
  | cons n rest =>
      rcases Nat.lt_or_ge n 0x10000 with small | large
      · rw [List.flatMap_cons, unitsOf_of_lt small]
        simpa using high
      · rw [List.flatMap_cons, unitsOf_of_le large]
        simpa using (halves_of_le large (inside n List.mem_cons_self)).2.1

/-- Code points are joined to what their code units are joined to. -/
theorem joinSurrogates?_units : ∀ (codes : List Nat), (∀ n ∈ codes, n ≤ 0x10ffff) →
    joinSurrogates? codes = joinSurrogates? (codes.flatMap unitsOf)
  | [], _ => rfl
  | n :: rest, inside => by
      obtain ⟨own, others⟩ := List.forall_mem_cons.mp inside
      have later := joinSurrogates?_units rest others
      rw [List.flatMap_cons]
      rcases Nat.lt_or_ge n 0x10000 with small | large
      · rw [unitsOf_of_lt small]
        cases high : isHighSurrogate n with
        | true =>
            -- with its partner a character, without it nothing
            by_cases partner : ∃ m others, rest = m :: others ∧ isLowSurrogate m = true
            · obtain ⟨m, more, rfl, low⟩ := partner
              have short : m < 0x10000 := by
                simp only [isLowSurrogate, Bool.and_eq_true, decide_eq_true_eq] at low
                omega
              have behind := joinSurrogates?_units more (List.forall_mem_cons.mp others).2
              rw [List.flatMap_cons, unitsOf_of_lt short]
              exact (joinSurrogates?_pair high low more).trans
                (behind ▸ (joinSurrogates?_pair high low _).symm)
            · have alone : ∀ m ∈ rest.head?, isLowSurrogate m = false := by
                intro m first
                obtain ⟨more, rfl⟩ := List.head?_eq_some_iff.mp first
                exact Bool.eq_false_iff.mpr fun low => partner ⟨m, more, rfl, low⟩
              rw [joinSurrogates?_lone (by simp [high]) fun _ => alone]
              exact (joinSurrogates?_lone (by simp [high]) fun _ => head?_units others alone).symm
        | false =>
            cases low : isLowSurrogate n with
            | true =>
                have never : isHighSurrogate n = true → ∀ units : List Nat,
                    ∀ m ∈ units.head?, isLowSurrogate m = false := by simp [high]
                rw [joinSurrogates?_lone (by simp [low]) fun h => never h rest]
                exact (joinSurrogates?_lone (by simp [low]) fun h => never h _).symm
            | false =>
                rw [joinSurrogates?_single high low, later]
                exact (joinSurrogates?_single high low _).symm
      · obtain ⟨notHigh, notLow⟩ := not_surrogate_of_le large
        obtain ⟨first, -, second, join⟩ := halves_of_le large own
        rw [unitsOf_of_le large, joinSurrogates?_single notHigh notLow, later, ← join]
        exact (joinSurrogates?_pair first second _).symm
termination_by codes => codes.length

theorem toNat_ofNat {n : Nat} (single : isHighSurrogate n = false) (single' : isLowSurrogate n = false)
    (inside : n ≤ 0x10ffff) : (Char.ofNat n).toNat = n := by
  simp only [isHighSurrogate, isLowSurrogate, Bool.and_eq_false_iff, decide_eq_false_iff_not]
    at single single'
  have valid : n.isValidChar := by
    unfold Nat.isValidChar
    omega
  rw [Char.ofNat, dif_pos valid]
  rfl

/-- The code units of a pair are the pair. -/
theorem codeUnits_joinPair {high low : Nat} (first : isHighSurrogate high = true)
    (second : isLowSurrogate low = true) : codeUnits (joinPair high low) = [high, low] := by
  simp only [isHighSurrogate, isLowSurrogate, Bool.and_eq_true, decide_eq_true_eq] at first second
  have large : 0x10000 ≤ 0x10000 + (high - 0xd800) * 0x400 + (low - 0xdc00) := by omega
  obtain ⟨notHigh, notLow⟩ := not_surrogate_of_le large
  have code : (joinPair high low).toNat = 0x10000 + (high - 0xd800) * 0x400 + (low - 0xdc00) :=
    toNat_ofNat notHigh notLow (by omega)
  have upper : highSurrogate (0x10000 + (high - 0xd800) * 0x400 + (low - 0xdc00)) = high := by
    unfold highSurrogate
    omega
  have lower : lowSurrogate (0x10000 + (high - 0xd800) * 0x400 + (low - 0xdc00)) = low := by
    unfold lowSurrogate
    omega
  rw [codeUnits, code, if_neg (Nat.not_lt.mpr large), upper, lower]

/-- The text that code units are joined to has these code units. -/
theorem units_of_joinSurrogates? : ∀ {units : List Nat} {text : List Char},
    (∀ n ∈ units, n < 0x10000) → joinSurrogates? units = some text → text.flatMap codeUnits = units
  | [], _, _, h => by
      cases h
      rfl
  | n :: rest, text, small, h => by
      obtain ⟨own, others⟩ := List.forall_mem_cons.mp small
      by_cases pair : isHighSurrogate n = true ∧
          ∃ m more, rest = m :: more ∧ isLowSurrogate m = true
      · obtain ⟨high, m, more, rfl, low⟩ := pair
        rw [joinSurrogates?_pair high low, Option.map_eq_some_iff] at h
        obtain ⟨tail, joined, rfl⟩ := h
        rw [List.flatMap_cons, codeUnits_joinPair high low,
          units_of_joinSurrogates? (List.forall_mem_cons.mp others).2 joined]
        rfl
      · by_cases lone : (isHighSurrogate n || isLowSurrogate n) = true
        · have alone : isHighSurrogate n = true → ∀ m ∈ rest.head?, isLowSurrogate m = false := by
            intro high m first
            obtain ⟨more, rfl⟩ := List.head?_eq_some_iff.mp first
            exact Bool.eq_false_iff.mpr fun low => pair ⟨high, m, more, rfl, low⟩
          rw [joinSurrogates?_lone lone alone] at h
          cases h
        · rw [Bool.not_eq_true, Bool.or_eq_false_iff] at lone
          rw [joinSurrogates?_single lone.1 lone.2, Option.map_eq_some_iff] at h
          obtain ⟨tail, joined, rfl⟩ := h
          have code : (Char.ofNat n).toNat = n := toNat_ofNat lone.1 lone.2 (by omega)
          rw [List.flatMap_cons, codeUnits, code, if_pos own, units_of_joinSurrogates? others joined]
          rfl
termination_by units => units.length

theorem unitsOf_lt {n : Nat} (inside : n ≤ 0x10ffff) : ∀ unit ∈ unitsOf n, unit < 0x10000 := by
  rcases Nat.lt_or_ge n 0x10000 with small | large
  · rw [unitsOf_of_lt small]
    simpa using small
  · have upper : highSurrogate n < 0x10000 := by
      unfold highSurrogate
      omega
    have lower : lowSurrogate n < 0x10000 := by
      unfold lowSurrogate
      omega
    rw [unitsOf_of_le large]
    simpa using ⟨upper, lower⟩

/-- Code points are joined to the text that has their code units, and to no other. -/
theorem joinSurrogates?_iff {codes : List Nat} (inside : ∀ n ∈ codes, n ≤ 0x10ffff)
    {text : List Char} :
    joinSurrogates? codes = some text ↔ text.flatMap codeUnits = codes.flatMap unitsOf := by
  rw [joinSurrogates?_units codes inside]
  constructor
  · refine units_of_joinSurrogates? fun unit there => ?_
    obtain ⟨n, among, own⟩ := List.mem_flatMap.mp there
    exact unitsOf_lt (inside n among) unit own
  · intro same
    rw [← same]
    exact joinSurrogatesWith_flatMap _ text

/-! ## Tokens -/

/-- A token is decoded to a text just when the notation has the token as a literal for that text, and
it is refused just when the notation has it for none. -/
theorem decode_iff_denotes (token : List Char) :
    (∀ text, decode token = .ok text ↔ Denotes token text) ∧
      ((∃ why, decode token = .error why) ↔ ∀ text, ¬Denotes token text) := by
  have exact : ∀ text, decode token = .ok text ↔ Denotes token text := by
    intro text
    unfold decode
    constructor
    · intro h
      split at h
      · cases h
      next codes read =>
      obtain ⟨quote, inside, isQuote, split, content⟩ := readToken_iff.mp read
      exact ⟨quote, inside, codes, isQuote, split, content,
        (joinSurrogates?_iff content.codes_le).mp (denoted_eq_ok.mp h)⟩
    · rintro ⟨quote, inside, codes, isQuote, split, content, units⟩
      have read := readToken_iff.mpr ⟨quote, inside, isQuote, split, content⟩
      have joined := (joinSurrogates?_iff content.codes_le).mpr units
      simp only [read, denoted_eq_ok.mpr joined]
  refine ⟨exact, ?_⟩
  cases done : decode token with
  | error why =>
      refine ⟨fun _ text denotes => ?_, fun _ => ⟨why, rfl⟩⟩
      rw [(exact text).mpr denotes] at done
      cases done
  | ok text =>
      constructor
      · rintro ⟨why, ⟨⟩⟩
      · exact fun none => absurd ((exact text).mp done) (none text)

/-- An octal escape takes two digits more, a continued line nothing, and two escapes make one
character. -/
example : decode "\"\\1012\\\r\n\\ud83d\\u{de00}\"".toList = .ok "A2😀".toList := by decide +kernel

end MessageCatalog.Script
