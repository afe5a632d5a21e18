import MessageCatalog.Proofs.Json.Quoted
import MessageCatalog.Script.Literal

/-!
# MessageCatalog.Proofs.Script.Literal -- what a literal holds and where it ends

A text is written as a literal character by character. Inside its quotes stands no quote, no bracket
or ampersand of markup and no control character, and a backslash only where an escape of two
hexadecimal digits starts. The reader of literals takes one back to its text and stops at its closing
quote, whatever stands behind it; so a text that starts with a literal says which one it is.
-/

namespace MessageCatalog.Script

open MessageCatalog.Json MessageCatalog.Number MessageCatalog.Text

/-! ## One character -/

/-- A character that stands as it is in a literal. -/
def Plain (c : Char) : Prop := needsEscape c = false

instance (c : Char) : Decidable (Plain c) := inferInstanceAs (Decidable (_ = _))

theorem plain_iff {c : Char} :
    Plain c ↔ 0x20 ≤ c.toNat ∧ c ≠ '"' ∧ c ≠ '\'' ∧ c ≠ '\\' ∧ c ≠ '<' ∧ c ≠ '>' ∧ c ≠ '&' := by
  simp [Plain, needsEscape, and_assoc]

theorem lt_of_not_plain {c : Char} (h : ¬Plain c) : c.toNat < 0x100 ∧ isHexDigit c = false := by
  simp only [plain_iff, not_and_or, not_not] at h
  rcases h with control | rfl | rfl | rfl | rfl | rfl | rfl
  · refine ⟨by omega, Bool.eq_false_iff.mpr fun digit => control ?_⟩
    simp only [isHexDigit, isAsciiDigit, Bool.or_eq_true, Bool.and_eq_true, decide_eq_true_eq]
      at digit
    rcases digit with (⟨low, -⟩ | ⟨low, -⟩) | ⟨low, -⟩
    all_goals exact le_trans (by decide) (show _ ≤ c.toNat from low)
  all_goals decide

/-- A character is written as it is, or behind a mark by two hexadecimal digits. -/
theorem escapeChar_cases (c : Char) :
    Plain c ∧ escapeChar c = [c] ∨
      escapeChar c = '\\' :: 'x' :: hexNumeral 2 c.toNat ∧ c.toNat < 0x100 := by
  rw [escapeChar]
  cases h : needsEscape c with
  | false => exact .inl ⟨h, rfl⟩
  | true => exact .inr ⟨rfl, (lt_of_not_plain (by simp [Plain, h])).1⟩

/-! ## The inside of a literal -/

/-- Inside the quotes stand characters that stand as they are, and backslashes. -/
theorem plain_of_mem_escape {text : List Char} {c : Char} (there : c ∈ escape text) :
    Plain c ∨ c = '\\' := by
  obtain ⟨d, -, inside⟩ := List.mem_flatMap.mp there
  rcases escapeChar_cases d with ⟨plain, form⟩ | ⟨form, -⟩
  · rw [form, List.mem_singleton] at inside
    exact .inl (inside ▸ plain)
  · rw [form, List.mem_cons, List.mem_cons] at inside
    rcases inside with rfl | rfl | digit
    · exact .inr rfl
    · exact .inl (by decide)
    · have hex := isHexDigit_of_mem_hexNumeral digit
      exact .inl (by_contra fun other => by simp [(lt_of_not_plain other).2] at hex)

theorem escapeChar_backslash {c : Char} {before behind : List Char}
    (h : escapeChar c = before ++ '\\' :: behind) :
    ∃ a b, behind = ['x', a, b] ∧ isHexDigit a = true ∧ isHexDigit b = true := by
  rcases escapeChar_cases c with ⟨plain, form⟩ | ⟨form, -⟩
  · rw [form] at h
    have same : '\\' = c := List.mem_singleton.mp (h ▸ List.mem_append_right _ List.mem_cons_self)
    exact absurd (same ▸ plain) (by decide)
  · obtain ⟨a, b, digits⟩ := List.length_eq_two.mp (length_hexNumeral 2 c.toNat)
    have hex : ∀ d ∈ [a, b], isHexDigit d = true := fun d there =>
      isHexDigit_of_mem_hexNumeral (digits.symm ▸ there)
    rw [form, digits] at h
    cases before with
    | nil =>
        obtain ⟨-, rfl⟩ := List.cons.inj h
        exact ⟨a, b, rfl, hex a (by simp), hex b (by simp)⟩
    | cons d more =>
        -- behind the mark stand an x and digits, none of them a backslash
        have there : '\\' ∈ ['x', a, b] :=
          (List.cons.inj h).2 ▸ List.mem_append_right _ List.mem_cons_self
        rcases List.mem_cons.mp there with same | digit
        · exact absurd same (by decide)
        · exact absurd (hex _ digit) (by decide)

/-- A backslash starts an escape. -/
theorem escape_backslash {text before behind : List Char}
    (h : escape text = before ++ '\\' :: behind) :
    ∃ a b rest, behind = 'x' :: a :: b :: rest ∧ isHexDigit a = true ∧ isHexDigit b = true := by
  induction text generalizing before with
  | nil => simp [escape] at h
  | cons c rest ih =>
      have front : escapeChar c ++ escape rest = before ++ '\\' :: behind := h
      rcases List.append_eq_append_iff.mp front with ⟨before', rfl, later⟩ | ⟨inside, one, later⟩
      · exact ih later
      · cases inside with
        | nil =>
            have start : escape rest = [] ++ '\\' :: behind := later.symm
            exact ih start
        | cons d tail =>
            obtain ⟨rfl, rfl⟩ := List.cons.inj later
            obtain ⟨a, b, rfl, hex⟩ := escapeChar_backslash one
            exact ⟨a, b, escape rest, rfl, hex⟩

/-! ## Reading a literal -/

/-- The quotes that enclose literals. -/
def IsQuote (c : Char) : Prop := c = '"' ∨ c = '\''

theorem Plain.ne_quote {c quote : Char} (plain : Plain c) (h : IsQuote quote) : c ≠ quote := by
  obtain ⟨-, double, single, -⟩ := plain_iff.mp plain
  rcases h with rfl | rfl
  · exact double
  · exact single

variable {quote : Char} {fuel width : Nat}

theorem readHex_hexNumeral {n : Nat} (fits : n < Nat.pow 16 width) (rest : List Char) :
    readHex width (hexNumeral width n ++ rest) = .ok (n, rest) := by
  have front : (hexNumeral width n ++ rest).take width = hexNumeral width n :=
    List.take_left' (length_hexNumeral width n)
  have behind : (hexNumeral width n ++ rest).drop width = rest :=
    List.drop_left' (length_hexNumeral width n)
  have digits : (hexNumeral width n).all isHexDigit = true :=
    List.all_eq_true.mpr fun _ => isHexDigit_of_mem_hexNumeral
  rw [readHex, front, behind, digits, length_hexNumeral, numeral_hexNumeral fits, beq_self_eq_true]
  rfl

theorem denoted_eq_ok {codes : List Nat} {text : List Char} :
    denoted codes = .ok text ↔ joinSurrogates? codes = some text := by
  unfold denoted
  cases joinSurrogates? codes <;> simp

theorem denoted_eq_error {codes : List Nat} {e : LiteralError} (h : denoted codes = .error e) :
    e = .loneSurrogate := by
  unfold denoted at h
  split at h
  · cases h
  · cases h
    rfl

/-- Inside quotes of a kind a part is read as some code points, one step for each of them, whatever
stands behind it. -/
structure Reads (quote : Char) (part : List Char) (codes : List Nat) : Prop where
  /-- There are no more steps than characters. -/
  short : codes.length ≤ part.length
  read : ∀ fuel rest, readContent quote (fuel + codes.length) (part ++ rest) =
    (readContent quote fuel rest).map fun (others, rest) => (codes ++ others, rest)

namespace Reads

variable {part next : List Char} {codes more : List Nat}

theorem nil : Reads quote [] [] where
  short := Nat.le_refl 0
  read fuel rest := by
    show readContent quote fuel rest = _
    cases readContent quote fuel rest <;> rfl

theorem append (first : Reads quote part codes) (second : Reads quote next more) :
    Reads quote (part ++ next) (codes ++ more) where
  short := by
    have := first.short
    have := second.short
    simp only [List.length_append]
    omega
  read fuel rest := by
    have steps : fuel + (codes ++ more).length = fuel + more.length + codes.length := by
      simp only [List.length_append]
      omega
    rw [steps, List.append_assoc, first.read, second.read]
    cases readContent quote fuel rest with
    | error fault => rfl
    | ok result => simp [Except.map]

/-- What is read character by character is read. -/
theorem flatMap {written : Char → List Char} {units : Char → List Nat}
    (one : ∀ c, Reads quote (written c) (units c)) (text : List Char) :
    Reads quote (text.flatMap written) (text.flatMap units) := by
  induction text with
  | nil => exact nil
  | cons c rest ih =>
      rw [List.flatMap_cons, List.flatMap_cons]
      exact (one c).append ih

/-- What is inside a literal is read up to its closing quote. -/
theorem content (inside : Reads quote part codes) (rest : List Char) (enough : codes.length < fuel) :
    readContent quote fuel (part ++ quote :: rest) = .ok (codes, rest) := by
  obtain ⟨left, rfl⟩ := Nat.exists_eq_add_of_lt enough
  have steps : codes.length + left + 1 = left + 1 + codes.length := by omega
  rw [steps, inside.read, readContent]
  simp [Except.map]

/-- A literal is read as the code points of its inside. -/
theorem token (h : IsQuote quote) (inside : Reads quote part codes) :
    readToken (quote :: part ++ [quote]) = .ok codes := by
  have enough : codes.length < (quote :: (part ++ [quote])).length := by
    have := inside.short
    simp only [List.length_append, List.length_cons]
    omega
  have first : (quote == '"' || quote == '\'') = true := by
    rcases h with rfl | rfl <;> rfl
  rw [List.cons_append, readToken, if_pos first, inside.content [] enough]

/-- A literal denotes the text that its code points are joined to. -/
theorem decode {text : List Char} (h : IsQuote quote) (inside : Reads quote part codes)
    (joined : joinSurrogates? codes = some text) :
    Script.decode (quote :: part ++ [quote]) = .ok text := by
  rw [Script.decode, inside.token h]
  exact denoted_eq_ok.mpr joined

end Reads

/-- A character is read from what it is written as. -/
theorem reads_escapeChar (h : IsQuote quote) (c : Char) :
    Reads quote (escapeChar c) [c.toNat] := by
  rcases escapeChar_cases c with ⟨plain, form⟩ | ⟨form, fits⟩
  · obtain ⟨printed, -, -, slash, -⟩ := plain_iff.mp plain
    have feed : c ≠ '\n' := by
      rintro rfl
      exact absurd printed (by decide)
    have carriage : c ≠ '\r' := by
      rintro rfl
      exact absurd printed (by decide)
    rw [form]
    refine ⟨Nat.le_refl 1, fun fuel rest => ?_⟩
    show readContent quote (fuel + 1) (c :: rest) = _
    rw [readContent]
    simp [plain.ne_quote h, slash, feed, carriage]
  · have mark : ('\\' == quote) = false := by
      rcases h with rfl | rfl <;> rfl
    rw [form]
    refine ⟨by simp, fun fuel rest => ?_⟩
    have digits : readHex 2 (hexNumeral 2 c.toNat ++ rest) = .ok (c.toNat, rest) :=
      readHex_hexNumeral fits rest
    have escape : readEscape ('x' :: (hexNumeral 2 c.toNat ++ rest)) = .ok ([c.toNat], rest) := by
      simp [readEscape, controlEscape?, isLineTerminator, isOctalDigit, digits]
    show readContent quote (fuel + 1) ('\\' :: ('x' :: (hexNumeral 2 c.toNat ++ rest))) = _
    rw [readContent, mark, escape]
    rfl

theorem reads_escape (h : IsQuote quote) (text : List Char) :
    Reads quote (escape text) (text.map Char.toNat) := by
  rw [List.map_eq_flatMap]
  exact Reads.flatMap (reads_escapeChar h) text

/-- A text that starts with a literal says which one it is and what stands behind it. -/
theorem literal_append_inj {text other rest behind : List Char}
    (h : literal text ++ rest = literal other ++ behind) : text = other ∧ rest = behind := by
  have inside : escape text ++ '"' :: rest = escape other ++ '"' :: behind := by
    simpa [literal, Script.quote] using h
  have enough : (text.map Char.toNat).length < text.length + other.length + 1 := by
    rw [List.length_map]
    omega
  have enough' : (other.map Char.toNat).length < text.length + other.length + 1 := by
    rw [List.length_map]
    omega
  have read := (reads_escape (.inl rfl) text).content rest enough
  rw [inside, (reads_escape (.inl rfl) other).content behind enough'] at read
  obtain ⟨codes, rfl⟩ := Prod.mk.inj (Except.ok.inj read)
  have injective : Function.Injective Char.toNat := fun _ _ same => Char.toNat_inj.mp same
  exact ⟨(List.map_injective_iff.mpr injective codes).symm, rfl⟩

/-- What is written in quotes of either kind is read as the text. -/
theorem decode_quoted (h : IsQuote quote) (text : List Char) :
    decode (quote :: escape text ++ [quote]) = .ok text :=
  (reads_escape h text).decode h (joinSurrogatesWith_toNat _ text)

/-! ## Surrogates in a literal -/

/-- Code points without surrogates are those of a text. -/
theorem joinSurrogates?_of_none {codes : List Nat}
    (none : ∀ n ∈ codes, isHighSurrogate n = false ∧ isLowSurrogate n = false) :
    joinSurrogates? codes = some (codes.map Char.ofNat) := by
  induction codes with
  | nil => rfl
  | cons n rest ih =>
      rw [List.forall_mem_cons] at none
      obtain ⟨⟨notHigh, notLow⟩, others⟩ := none
      have later : joinSurrogatesWith _ rest = some (rest.map Char.ofNat) := ih others
      cases rest with
      | nil => simp [joinSurrogates?, joinSurrogatesWith, notHigh, notLow]
      | cons m more => simp [joinSurrogates?, joinSurrogatesWith, notHigh, notLow, later]

/-- A character that is no stand-in stands for no surrogate. -/
theorem not_surrogate_unmasked {c : Char} (own : isStandIn c.toNat = false) :
    isHighSurrogate (unmasked c.toNat) = false ∧ isLowSurrogate (unmasked c.toNat) = false := by
  rw [unmasked, own]
  exact not_surrogate c

/-- A stand-in is written as it is. -/
theorem escapeChar_standIn {c : Char} (h : isStandIn c.toNat = true) : escapeChar c = [c] := by
  rcases escapeChar_cases c with ⟨-, form⟩ | ⟨-, small⟩
  · exact form
  · simp only [isStandIn, Bool.and_eq_true, decide_eq_true_eq] at h
    omega

/-- A literal whose characters may stand in for surrogates is read, or it has both an escape and a
stand-in and is refused for a surrogate that stands alone. -/
theorem decodeMasked_literal (text : List Char) :
    (∃ denotes, decodeMasked (literal text) = .ok denotes) ∨
      decodeMasked (literal text) = .error .loneSurrogate ∧ '\\' ∈ escape text ∧
        ∃ c ∈ escape text, isStandIn c.toNat = true := by
  have token : readToken (literal text) = .ok (text.map Char.toNat) :=
    (reads_escape (.inl rfl) text).token (.inl rfl)
  rw [decodeMasked, token]
  by_cases escaped : '\\' ∈ escape text
  · have marked : (literal text).contains '\\' = true := by
      simp [literal, Script.quote, escaped]
    simp only [marked, if_true, denoted]
    by_cases masks : ∃ c ∈ text, isStandIn c.toNat = true
    · obtain ⟨c, there, standIn⟩ := masks
      have stays : c ∈ escape text :=
        List.mem_flatMap.mpr ⟨c, there, by rw [escapeChar_standIn standIn]; exact List.mem_cons_self⟩
      cases joinSurrogates? ((text.map Char.toNat).map unmasked) with
      | some joined => exact .inl ⟨joined, rfl⟩
      | none => exact .inr ⟨rfl, escaped, c, stays, standIn⟩
    · have none : ∀ n ∈ (text.map Char.toNat).map unmasked,
          isHighSurrogate n = false ∧ isLowSurrogate n = false := by
        rw [List.map_map]
        intro n there
        obtain ⟨c, inside, rfl⟩ := List.mem_map.mp there
        exact not_surrogate_unmasked (Bool.eq_false_iff.mpr fun own => masks ⟨c, inside, own⟩)
      rw [joinSurrogates?_of_none none]
      exact .inl ⟨_, rfl⟩
  · have plain : (literal text).contains '\\' = false := by
      simp [literal, Script.quote, escaped]
    simp only [plain]
    exact .inl ⟨_, rfl⟩

/-! ## Scripts in pieces -/

/-- A part of a script. -/
inductive Piece where
  | code (text : List Char)
  | quoted (content : List Char)

/-- A part as it stands in the script. -/
def Piece.text : Piece → List Char
  | .code text => text
  | .quoted content => Script.quote content

/-- Nothing breaks out of a part. Code has characters of some kind. A quoted part has only characters
that may stand as they are and backslashes, and each backslash in it starts an escape of two
hexadecimal digits. It is a literal; where characters stand in for surrogates, it is one unless it has
such a character beside an escape. -/
def Piece.Safe (inCode : Char → Prop) : Piece → Prop
  | .code text => ∀ c ∈ text, inCode c
  | .quoted content =>
    (∀ c ∈ content, Plain c ∨ c = '\\') ∧
    (∃ text, decode (Script.quote content) = .ok text) ∧
    ((∃ text, decodeMasked (Script.quote content) = .ok text) ∨
      decodeMasked (Script.quote content) = .error .loneSurrogate ∧ '\\' ∈ content ∧
        ∃ c ∈ content, isStandIn c.toNat = true) ∧
    ∀ before behind, content = before ++ '\\' :: behind →
      ∃ a b rest, behind = 'x' :: a :: b :: rest ∧ isHexDigit a = true ∧ isHexDigit b = true

/-- A script that is made of such parts. -/
def Splits (inCode : Char → Prop) (text : List Char) : Prop :=
  ∃ pieces : List Piece, text = pieces.flatMap Piece.text ∧ ∀ piece ∈ pieces, piece.Safe inCode

namespace Splits

variable {inCode : Char → Prop} {text other : List Char}

theorem code (h : ∀ c ∈ text, inCode c) : Splits inCode text :=
  ⟨[.code text], by simp [Piece.text], by simpa [Piece.Safe] using h⟩

/-- Code that is known can be looked through. -/
theorem known [DecidablePred inCode] (h : text.all (fun c => decide (inCode c)) = true) :
    Splits inCode text :=
  code fun c there => by simpa using List.all_eq_true.mp h c there

theorem literal (text : List Char) : Splits inCode (Script.literal text) := by
  refine ⟨[.quoted (escape text)], by simp [Piece.text, Script.literal], ?_⟩
  rintro _ (_ | ⟨_, ⟨⟩⟩)
  exact ⟨fun c => plain_of_mem_escape, ⟨text, decode_quoted (.inl rfl) text⟩,
    decodeMasked_literal text, fun before behind => escape_backslash⟩

theorem append (h : Splits inCode text) (h' : Splits inCode other) :
    Splits inCode (text ++ other) := by
  obtain ⟨pieces, rfl, safe⟩ := h
  obtain ⟨others, rfl, safe'⟩ := h'
  refine ⟨pieces ++ others, by rw [List.flatMap_append], fun piece there => ?_⟩
  rcases List.mem_append.mp there with first | second
  · exact safe piece first
  · exact safe' piece second

theorem cons {c : Char} (own : inCode c) (h : Splits inCode text) : Splits inCode (c :: text) := by
  have first : Splits inCode [c] := code (by simpa using own)
  exact first.append h

theorem intercalate {separator : List Char} (between : Splits inCode separator)
    {parts : List (List Char)} (each : ∀ part ∈ parts, Splits inCode part) :
    Splits inCode (separator.intercalate parts) := by
  induction parts with
  | nil => exact code (by simp)
  | cons part rest ih =>
      have own := each part List.mem_cons_self
      cases rest with
      | nil => simpa using own
      | cons next others =>
          rw [List.intercalate_cons_cons]
          exact (own.append between).append (ih fun part there => each part (.tail _ there))

theorem mono {more : Char → Prop} (weaker : ∀ c, inCode c → more c) (h : Splits inCode text) :
    Splits more text := by
  obtain ⟨pieces, rfl, safe⟩ := h
  refine ⟨pieces, rfl, fun piece there => ?_⟩
  cases piece with
  | code text => exact fun c inside => weaker c (safe _ there c inside)
  | quoted content => exact safe _ there

/-- The characters of a script: those of its code, and in its literals characters that stand as they
are, backslashes and double quotes. -/
theorem mem {c : Char} (h : Splits inCode text) (there : c ∈ text) :
    inCode c ∨ Plain c ∨ c = '\\' ∨ c = '"' := by
  obtain ⟨pieces, rfl, safe⟩ := h
  obtain ⟨piece, inside, own⟩ := List.mem_flatMap.mp there
  cases piece with
  | code text => exact .inl (safe _ inside c own)
  | quoted content =>
      have quoted : c = '"' ∨ c ∈ content := by simpa [Piece.text, Script.quote, or_comm] using own
      rcases quoted with mark | own
      · exact .inr (.inr (.inr mark))
      · rcases (safe _ inside).1 c own with plain | mark
        · exact .inr (.inl plain)
        · exact .inr (.inr (.inl mark))

end Splits

/-- The contents between the double quotes of a text, every second one of them closing. The text so
far of an open content is given. -/
def contents : Option (List Char) → List Char → List (List Char)
  | _, [] => []
  | none, c :: rest => if c = '"' then contents (some []) rest else contents none rest
  | some done, c :: rest =>
    if c = '"' then done :: contents none rest else contents (some (done ++ [c])) rest

theorem contents_code {code : List Char} (apart : '"' ∉ code) (rest : List Char) :
    contents none (code ++ rest) = contents none rest := by
  induction code with
  | nil => rfl
  | cons c more ih =>
      rw [List.mem_cons, not_or] at apart
      rw [List.cons_append, contents, if_neg (Ne.symm apart.1), ih apart.2]

theorem contents_quoted {content : List Char} (apart : '"' ∉ content) (done rest : List Char) :
    contents (some done) (content ++ '"' :: rest) = (done ++ content) :: contents none rest := by
  induction content generalizing done with
  | nil => simp [contents]
  | cons c more ih =>
      rw [List.mem_cons, not_or] at apart
      rw [List.cons_append, contents, if_neg (Ne.symm apart.1), ih apart.2, List.append_assoc]
      rfl

/-- A text says which quoted parts it is made of, when no part has a double quote inside. -/
theorem contents_flatMap {pieces : List Piece}
    (apart : ∀ piece ∈ pieces, match piece with
      | .code text => '"' ∉ text
      | .quoted content => '"' ∉ content) :
    ∀ content, content ∈ contents none (pieces.flatMap Piece.text) ↔ .quoted content ∈ pieces := by
  intro content
  induction pieces with
  | nil => simp [contents]
  | cons piece rest ih =>
      rw [List.forall_mem_cons] at apart
      have later := ih apart.2
      rw [List.flatMap_cons]
      cases piece with
      | code text =>
          have front : contents none (text ++ rest.flatMap Piece.text) = _ :=
            contents_code apart.1 _
          simp [Piece.text, front, later]
      | quoted inside =>
          have front : contents (some []) (inside ++ '"' :: rest.flatMap Piece.text) = _ :=
            contents_quoted apart.1 [] _
          simp [Piece.text, Script.quote, contents, front, later]

end MessageCatalog.Script
