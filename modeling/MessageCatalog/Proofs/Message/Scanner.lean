import MessageCatalog.Proofs.Message.Grammar
import MessageCatalog.Proofs.Text.Search

/-!
# MessageCatalog.Proofs.Message.Scanner -- every leaf of the grammar is read exactly

Each scanner of the parser succeeds on the texts that the predicate of its name describes, with the
value that the predicate gives and the same text left over, and on no others.
-/

namespace MessageCatalog.Message

open MessageCatalog.Text

/-! ## White space and words -/

theorem blanks_iff {text rest : List Char} : Blanks text rest ↔ skipBlanks text = rest := by
  constructor
  · rintro ⟨blanks, h⟩
    exact (longestRun_iff.mp h).2
  · rintro rfl
    exact ⟨_, longestRun_takeWhile isBlank text⟩

theorem blanks_skipBlanks (text : List Char) : Blanks text (skipBlanks text) := blanks_iff.mpr rfl

theorem Blanks.length_le {text rest : List Char} (h : Blanks text rest) :
    rest.length ≤ text.length := h.suffix.length_le

theorem Blanks.stops {text rest : List Char} (h : Blanks text rest) :
    ∀ c ∈ rest.head?, isBlank c = false := by
  obtain ⟨_, h⟩ := h
  exact h.2.2

/-- White space is skipped once and for all. -/
theorem Blanks.skipped {text rest : List Char} (h : Blanks text rest) : skipBlanks rest = rest :=
  (dropWhile_eq_of_head? h.stops).2

theorem expect_iff {c : Char} {text rest : List Char} :
    expect c text = .ok rest ↔ text = c :: rest := by
  cases text with
  | nil => simp [expect]
  | cons d cs =>
      rw [expect]
      split
      · next h =>
          rw [beq_iff_eq] at h
          simp [h]
      · next h =>
          rw [beq_iff_eq] at h
          simp [h]

@[simp]
theorem expect_cons (c : Char) (rest : List Char) : expect c (c :: rest) = .ok rest :=
  expect_iff.mpr rfl

theorem readWord_iff {kind : WordKind} {text rest : List Char} {word : String} :
    readWord kind text = .ok (word, rest) ↔ Word text word rest := by
  rw [readWord, Word, longestRun_iff]
  by_cases empty : text.takeWhile isWordCharacter = []
  · rw [if_pos (by simp [empty]), empty]
    constructor
    · intro h
      cases h
    · rintro ⟨⟨taken, _⟩, some⟩
      exact absurd (String.toList_eq_nil_iff.mp taken.symm) some
  · rw [if_neg (by simpa using empty)]
    constructor
    · intro h
      cases h
      exact ⟨⟨String.toList_ofList.symm, rfl⟩, mt String.ofList_eq_empty_iff.mp empty⟩
    · rintro ⟨⟨taken, rfl⟩, _⟩
      rw [taken, String.ofList_toList]

theorem Word.length_lt {text rest : List Char} {word : String} (h : Word text word rest) :
    rest.length < text.length := by
  obtain ⟨⟨split, _⟩, some⟩ := h
  have : word.toList ≠ [] := mt String.toList_eq_nil_iff.mp some
  have : word.toList.length ≠ 0 := mt List.eq_nil_of_length_eq_zero this
  rw [split, List.length_append]
  omega

/-- Where a word starts, nothing ends. -/
theorem Word.not_closed {text rest : List Char} {word : String} (h : Word text word rest) :
    ¬(text.isEmpty || text.head? == some '\x7d') = true := by
  obtain ⟨⟨split, inside, _⟩, some⟩ := h
  obtain ⟨c, cs, hc⟩ := List.exists_cons_of_ne_nil (mt String.toList_eq_nil_iff.mp some)
  have first : isWordCharacter c = true := inside c (by simp [hc])
  rw [split, hc]
  rintro closed
  have : c = '\x7d' := by simpa using closed
  subst this
  exact absurd first (by decide)

/-! ## Text -/

theorem special_iff {inPlural : Bool} {c : Char} :
    Special inPlural c ↔ opensLiteral inPlural c = true := by
  simp [Special, opensLiteral, or_assoc]

theorem readLiteral_sound {text chars rest : List Char}
    (h : readLiteral text = some (chars, rest)) : Literal text chars rest := by
  fun_induction readLiteral text generalizing chars rest with
  | case1 => simp at h
  | case2 text ih =>
      obtain ⟨⟨cs, r⟩, hr, he⟩ := Option.map_eq_some_iff.mp h
      simp only [Prod.mk.injEq] at he
      obtain ⟨rfl, rfl⟩ := he
      exact .doubled (ih hr)
  | case3 text stop =>
      simp only [Option.some.injEq, Prod.mk.injEq] at h
      obtain ⟨rfl, rfl⟩ := h
      refine .close fun double => ?_
      obtain ⟨tail, rfl⟩ := List.head?_eq_some_iff.mp double
      exact stop tail rfl
  | case4 c text _ other ih =>
      obtain ⟨⟨cs, r⟩, hr, he⟩ := Option.map_eq_some_iff.mp h
      simp only [Prod.mk.injEq] at he
      obtain ⟨rfl, rfl⟩ := he
      exact .char other (ih hr)

theorem readLiteral_complete {text chars rest : List Char} (h : Literal text chars rest) :
    readLiteral text = some (chars, rest) := by
  induction h with
  | @close rest single =>
      rw [readLiteral.eq_3]
      rintro tail rfl
      exact single rfl
  | doubled _ ih => rw [readLiteral, ih, Option.map_some]
  | @char c text chars rest other _ ih =>
      rw [readLiteral.eq_4 _ _ (fun _ h => absurd h other) other, ih, Option.map_some]

theorem prepend_iff {front chars rest : List Char} {read : Except Fault (List Char × List Char)} :
    prepend front read = .ok (chars, rest) ↔
      ∃ others, read = .ok (others, rest) ∧ chars = front ++ others := by
  cases read with
  | error fault => simp [prepend]
  | ok result =>
      obtain ⟨others, behind⟩ := result
      simp only [prepend, Except.ok.injEq, Prod.mk.injEq]
      constructor
      · rintro ⟨rfl, rfl⟩
        exact ⟨others, ⟨rfl, rfl⟩, rfl⟩
      · rintro ⟨_, ⟨rfl, rfl⟩, rfl⟩
        exact ⟨rfl, rfl⟩

theorem readText_sound {inPlural : Bool} {text chars rest : List Char}
    (h : readText inPlural text = .ok (chars, rest)) : TextRun inPlural text chars rest := by
  fun_induction readText inPlural text generalizing chars rest with
  | case1 =>
      cases h
      exact .stop (by simp)
  | case2 text ih =>
      obtain ⟨others, hr, rfl⟩ := prepend_iff.mp h
      exact .doubled (ih hr)
  | case3 =>
      cases h
      exact .apostrophe (by simp) (.stop (by simp))
  | case4 c text _ opens unterminated => simp at h
  | case5 c text _ opens literal behind closed ih =>
      obtain ⟨others, hr, rfl⟩ := prepend_iff.mp h
      exact .quoted (special_iff.mpr opens) (readLiteral_sound closed) (ih hr)
  | case6 c text single plain ih =>
      obtain ⟨others, hr, rfl⟩ := prepend_iff.mp h
      refine .apostrophe ?_ (ih hr)
      rintro d ⟨⟩
      exact ⟨single, mt special_iff.mp plain⟩
  | case7 c text _ _ _ ends =>
      cases h
      refine .stop ?_
      rintro d ⟨⟩
      exact special_iff.mpr ends
  | case8 c text _ last next plain ih =>
      obtain ⟨others, hr, rfl⟩ := prepend_iff.mp h
      refine .char ?_ (mt special_iff.mp plain) (ih hr)
      rintro rfl
      cases text with
      | nil => exact last rfl rfl
      | cons d ds => exact next d ds rfl rfl

/-- A character other than an apostrophe is read by the last rule of the scanner. -/
theorem readText_cons {inPlural : Bool} {c : Char} (text : List Char) (h : c ≠ '\'') :
    readText inPlural (c :: text) =
      if opensLiteral inPlural c then .ok ([], c :: text)
      else prepend [c] (readText inPlural text) :=
  readText.eq_5 inPlural c text (fun _ e => absurd e h) (fun e => absurd e h)
    (fun _ _ e => absurd e h)

theorem readText_complete {inPlural : Bool} {text chars rest : List Char}
    (h : TextRun inPlural text chars rest) : readText inPlural text = .ok (chars, rest) := by
  induction h with
  | @stop rest ends =>
      cases rest with
      | nil => rw [readText]
      | cons c cs =>
          have special : Special inPlural c := ends c rfl
          have other : c ≠ '\'' := by
            rintro rfl
            simp [Special] at special
          rw [readText_cons cs other, if_pos (special_iff.mp special)]
  | doubled _ ih => rw [readText, ih, prepend, List.singleton_append]
  | @quoted c text literal behind chars rest special closed _ ih =>
      have other : c ≠ '\'' := by
        rintro rfl
        simp [Special] at special
      rw [readText.eq_4 _ _ _ other, if_pos (special_iff.mp special)]
      split
      · next unterminated =>
          rw [readLiteral_complete closed] at unterminated
          cases unterminated
      · next found =>
          rw [readLiteral_complete closed] at found
          cases found
          rw [ih, prepend]
  | @apostrophe text chars rest plain _ ih =>
      cases text with
      | nil =>
          rw [readText] at ih
          cases ih
          rw [readText]
      | cons c cs =>
          obtain ⟨other, ordinary⟩ := plain c rfl
          rw [readText.eq_4 _ _ _ other, if_neg (mt special_iff.mpr ordinary), ih, prepend,
            List.singleton_append]
  | @char c text chars rest other ordinary _ ih =>
      rw [readText_cons text other, if_neg (mt special_iff.mpr ordinary), ih, prepend,
        List.singleton_append]

theorem readText_iff {inPlural : Bool} {text chars rest : List Char} :
    readText inPlural text = .ok (chars, rest) ↔ TextRun inPlural text chars rest :=
  ⟨readText_sound, readText_complete⟩

theorem TextRun.length_le {inPlural : Bool} {text chars rest : List Char}
    (h : TextRun inPlural text chars rest) : rest.length ≤ text.length := h.suffix.length_le

/-- A run of text ends at a token or at the end of the text. -/
theorem TextRun.stops {inPlural : Bool} {text chars rest : List Char}
    (h : TextRun inPlural text chars rest) : ∀ c ∈ rest.head?, Special inPlural c := by
  induction h with
  | stop ends => exact ends
  | doubled _ ih | quoted _ _ _ ih | apostrophe _ _ ih | char _ _ _ ih => exact ih

/-! ## Styles -/

theorem style_iff {written : List Char} {style : Option String} :
    Style written style ↔
      style = if (trim isBlank written).isEmpty then none
        else some (String.ofList (trim isBlank written)) := by
  constructor
  · intro h
    cases h with
    | blank all => rw [if_pos (by rw [trim_eq_nil_iff.mpr all, List.isEmpty_nil])]
    | @text before after style some blankBefore blankAfter starts ends =>
        have core : style.toList ≠ [] := mt String.toList_eq_nil_iff.mp some
        rw [trim_append core blankBefore blankAfter starts ends,
          if_neg (by simpa using some), String.ofList_toList]
  · rintro rfl
    obtain ⟨before, after, split, blankBefore, blankAfter, starts, ends⟩ :=
      trim_split isBlank written
    by_cases empty : trim isBlank written = []
    · rw [if_pos (by simp [empty])]
      exact .blank (trim_eq_nil_iff.mp empty)
    · rw [if_neg (by simpa using empty)]
      have some : String.ofList (trim isBlank written) ≠ "" :=
        mt String.ofList_eq_empty_iff.mp empty
      have text : Style (before ++ (String.ofList (trim isBlank written)).toList ++ after)
          (Option.some (String.ofList (trim isBlank written))) :=
        .text some blankBefore blankAfter (by rwa [String.toList_ofList])
          (by rwa [String.toList_ofList])
      rwa [String.toList_ofList, ← split] at text

/-- A format ends directly behind its type, or behind a style without braces. -/
theorem readStyle_iff {text rest : List Char} {style : Option String} :
    readStyle text = (style, '\x7d' :: rest) ↔
      (text = '\x7d' :: rest ∧ style = none) ∨
        ∃ written, text = ',' :: written ++ '\x7d' :: rest ∧
          (∀ c ∈ written, c ≠ '\x7b' ∧ c ≠ '\x7d') ∧ Style written style := by
  unfold readStyle
  split
  · next behind =>
      have braceless : ∀ written, LongestRun (fun c => c != '\x7b' && c != '\x7d') behind written
          ('\x7d' :: rest) ↔ ',' :: behind = ',' :: written ++ '\x7d' :: rest ∧
            ∀ c ∈ written, c ≠ '\x7b' ∧ c ≠ '\x7d' := by
        intro written
        simp [LongestRun]
      constructor
      · intro h
        obtain ⟨rfl, stop⟩ := Prod.mk.inj h
        have run := longestRun_takeWhile (fun c => c != '\x7b' && c != '\x7d') behind
        rw [stop] at run
        obtain ⟨split, inside⟩ := (braceless _).mp run
        exact .inr ⟨_, split, inside, style_iff.mpr rfl⟩
      · rintro (⟨h, _⟩ | ⟨written, split, inside, h⟩)
        · cases h
        · obtain ⟨taken, dropped⟩ := longestRun_iff.mp ((braceless written).mpr ⟨split, inside⟩)
          simp only [taken, dropped, style_iff.mp h]
  · next other =>
      constructor
      · intro h
        obtain ⟨rfl, rfl⟩ := Prod.mk.inj h
        exact .inl ⟨rfl, rfl⟩
      · rintro (⟨rfl, rfl⟩ | ⟨written, rfl, _⟩)
        · rfl
        · exact absurd rfl (other _)

/-! ## Keys and offsets -/

theorem isDecimalDigit_dot : isDecimalDigit '.' = false := by decide

theorem Digits.head? {digits : List Char} (h : Digits digits) (rest : List Char) :
    ((digits ++ rest).head?.any isDecimalDigit) = true := by
  cases digits with
  | nil => exact absurd rfl h.1
  | cons d ds => simpa using h.2 d List.mem_cons_self

theorem exactKey_of_isExactKey {key : String} (h : isExactKey key = true) : ExactKey key := by
  unfold isExactKey at h
  split at h
  · next digits written =>
      obtain ⟨split, inside, _⟩ := longestRun_takeWhile isDecimalDigit digits
      rw [Bool.and_eq_true] at h
      obtain ⟨some, h⟩ := h
      have digitsFit : Digits (digits.takeWhile isDecimalDigit) := by
        refine ⟨?_, inside⟩
        cases digits with
        | nil => simp at some
        | cons d ds =>
            have : isDecimalDigit d = true := by simpa using some
            simp [this]
      refine ⟨_, digitsFit, ?_⟩
      -- behind the digits stands nothing or a fraction
      split at h
      · next rest =>
          rw [rest, List.append_nil] at split
          exact .inl (by rw [written, ← split])
      · next fraction rest =>
          simp only [Bool.and_eq_true, Bool.not_eq_true', List.isEmpty_eq_false_iff,
            List.all_eq_true] at h
          refine .inr ⟨fraction, h, ?_⟩
          rw [rest] at split
          rw [written, List.cons_append, ← split]
      · cases h
  · cases h

theorem ExactKey.isExactKey {key : String} (h : ExactKey key) : isExactKey key = true := by
  obtain ⟨digits, digitsFit, written⟩ := h
  rcases written with written | ⟨fraction, ⟨someMore, insideMore⟩, written⟩
  · have whole := digitsFit.head? []
    rw [List.append_nil] at whole
    simp only [Message.isExactKey, written, whole, List.dropWhile_eq_nil_iff.mpr digitsFit.2,
      Bool.and_self]
  · have stop : ∀ c ∈ ('.' :: fraction).head?, isDecimalDigit c = false := by
      rintro c ⟨⟩
      exact isDecimalDigit_dot
    have dropped := (longestRun_iff.mp ⟨rfl, digitsFit.2, stop⟩).2
    rw [List.cons_append] at written
    simp only [Message.isExactKey, written, digitsFit.head?, dropped, Bool.true_and,
      Bool.and_eq_true, Bool.not_eq_true', List.isEmpty_eq_false_iff, List.all_eq_true]
    exact ⟨someMore, insideMore⟩

theorem isExactKey_iff {key : String} : isExactKey key = true ↔ ExactKey key :=
  ⟨exactKey_of_isExactKey, ExactKey.isExactKey⟩

theorem checkKey_iff {categories : Option (List String)} {name : String} {seen : List String}
    {key : String} :
    checkKey categories name seen key = .ok () ↔ KeyAllowed categories key ∧ key ∉ seen := by
  cases categories with
  | none => simp [checkKey, KeyAllowed]
  | some valid =>
      simp only [checkKey, KeyAllowed, Option.mem_def, Option.some.injEq, forall_eq',
        ← isExactKey_iff]
      by_cases allowed : key ∈ valid ∨ isExactKey key = true
      · by_cases known : key ∈ seen <;> simp [allowed, known]
      · simp [allowed]

theorem hexValue_of_isAsciiDigit {c : Char} (h : isAsciiDigit c = true) :
    hexValue c = c.toNat - '0'.toNat := by
  rw [hexValue, if_pos h]

/-- A numeral is read from its first digit on, and is worth the sum of its digits in their places. -/
theorem numeral_ten {digits : List Char} (h : ∀ c ∈ digits, isAsciiDigit c = true) :
    numeral 10 digits = Nat.ofDigits 10 (digits.reverse.map fun c => c.toNat - '0'.toNat) := by
  rw [numeral, List.foldl_eq_foldr_reverse]
  have inside : ∀ c ∈ digits.reverse, isAsciiDigit c = true := by simpa using h
  generalize digits.reverse = reversed at inside ⊢
  induction reversed with
  | nil => rfl
  | cons c cs ih =>
      rw [List.foldr_cons, ih fun d hd => inside d (List.mem_cons_of_mem c hd), List.map_cons,
        Nat.ofDigits_cons, hexValue_of_isAsciiDigit (inside c List.mem_cons_self)]
      omega

/-- The offset is read with the white space behind it; where there is no mark, no white space stands
before the first key any more. -/
theorem readOffset_iff {text rest : List Char} {offset : Nat}
    (h : ∀ c ∈ text.head?, isBlank c = false) :
    readOffset text = .ok (offset, rest) ↔
      ∃ behind, Offset text offset behind ∧ Blanks behind rest := by
  unfold readOffset
  constructor
  · intro read
    split at read
    · next absent =>
        cases read
        refine ⟨text, .absent ?_, [], by simp, by simp, h⟩
        rintro ⟨tail, rfl⟩
        rw [after?_iff.mpr rfl] at absent
        cases absent
    · next tail present =>
        rw [after?_iff] at present
        subst present
        have run := longestRun_takeWhile isAsciiDigit (skipBlanks tail)
        by_cases some : (skipBlanks tail).takeWhile isAsciiDigit = []
        · simp [some] at read
        · rw [if_neg (by simpa using some)] at read
          cases read
          rw [numeral_ten run.2.1]
          exact ⟨_, .present (blanks_skipBlanks tail) run some, blanks_skipBlanks _⟩
  · rintro ⟨behind, offset, blanks⟩
    rw [blanks_iff] at blanks
    cases offset with
    | absent missing =>
        have : after? offsetMark text = none := by
          rw [Option.eq_none_iff_forall_ne_some]
          rintro tail found
          exact missing ⟨tail, (after?_iff.mp found).symm⟩
        rw [this, ← blanks, skipBlanks, (dropWhile_eq_of_head? h).2]
    | @present tail started digits _ leading run some =>
        rw [blanks_iff] at leading
        obtain ⟨taken, dropped⟩ := longestRun_iff.mp run
        simp only [after?_iff.mpr rfl, leading, taken, dropped, blanks, ← numeral_ten run.2.1]
        rw [if_neg (by simpa using some)]

theorem Offset.length_le {text rest : List Char} {offset : Nat} (h : Offset text offset rest) :
    rest.length ≤ text.length := h.suffix.length_le

end MessageCatalog.Message
