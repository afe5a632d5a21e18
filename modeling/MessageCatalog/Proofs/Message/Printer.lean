import MessageCatalog.Proofs.Message.WellFormed
import MessageCatalog.Proofs.Number.Written

/-!
# MessageCatalog.Proofs.Message.Printer -- every well-formed message has a text

A message is printed without white space, every offset written out, zero too, so that a key that
looks like an offset is not taken for one. Text has its apostrophes doubled; from the first character
on that would be a token it stands in one literal, whose closing apostrophe no other can follow,
since text is never beside other text. The grammar derives the message from what is printed.
-/

namespace MessageCatalog.Message

open MessageCatalog.Number MessageCatalog.Text

/-! ## Printing -/

/-- A text with every apostrophe written twice. -/
def doubled (text : List Char) : List Char :=
  text.flatMap fun c => if c = '\'' then ['\'', '\''] else [c]

/-- Text in print: up to the first character that would be a token as it is, from there on in a
literal. -/
def printText (inPlural : Bool) (text : List Char) : List Char :=
  let plain := text.takeWhile fun c => !opensLiteral inPlural c
  match text.dropWhile fun c => !opensLiteral inPlural c with
  | [] => doubled plain
  | token :: more => doubled plain ++ '\'' :: token :: doubled more ++ ['\'']

/-- The type of a plural choice. -/
def pluralKind (ordinal : Bool) : String := if ordinal then "selectordinal" else "plural"

mutual
/-- An element in print. -/
def Element.print (inPlural : Bool) : Element → List Char
  | .text value => printText inPlural value.toList
  | .argument name => '\x7b' :: (name.toList ++ ['\x7d'])
  | .number => ['#']
  | .format name kind none => '\x7b' :: (name.toList ++ ',' :: (kind.toList ++ ['\x7d']))
  | .format name kind (some style) =>
    '\x7b' :: (name.toList ++ ',' :: (kind.toList ++ ',' :: (style.toList ++ ['\x7d'])))
  | .select name cases =>
    '\x7b' :: (name.toList ++ ',' :: ("select".toList ++ ',' ::
      (printCases inPlural cases ++ ['\x7d'])))
  | .plural name offset ordinal cases =>
    '\x7b' :: (name.toList ++ ',' :: ((pluralKind ordinal).toList ++ ',' ::
      (offsetMark ++ (Nat.toDigits 10 offset.toNat ++ ' ' :: (printCases true cases ++ ['\x7d'])))))

/-- Cases in print. -/
def printCases (inPlural : Bool) : List (String × List Element) → List Char
  | [] => []
  | (key, body) :: others =>
    key.toList ++ '\x7b' :: (printMessage inPlural body ++ '\x7d' :: printCases inPlural others)

/-- A message in print. -/
def printMessage (inPlural : Bool) : List Element → List Char
  | [] => []
  | element :: others => element.print inPlural ++ printMessage inPlural others
end

/-- A whole message in print. -/
def print (message : Message) : List Char := printMessage false message

/-! ## Text -/

variable {context : Context} {depth : Nat} {inPlural : Bool} {text rest : List Char}

theorem not_special_apostrophe : ¬Special inPlural '\'' := by simp [Special]

theorem literal_doubled (closed : rest.head? ≠ some '\'') (text : List Char) :
    Literal (doubled text ++ '\'' :: rest) text rest := by
  induction text with
  | nil => exact .close closed
  | cons c more ih =>
      by_cases quote : c = '\''
      · subst quote
        exact .doubled ih
      · have front : doubled (c :: more) = c :: doubled more := by
          simp [doubled, quote]
        rw [front]
        exact .char quote ih

theorem textRun_doubled {plain chars : List Char} (ordinary : ∀ c ∈ plain, ¬Special inPlural c)
    (behind : TextRun inPlural text chars rest) :
    TextRun inPlural (doubled plain ++ text) (plain ++ chars) rest := by
  induction plain with
  | nil => exact behind
  | cons c more ih =>
      have later := ih fun d there => ordinary d (List.mem_cons_of_mem c there)
      by_cases quote : c = '\''
      · subst quote
        exact .doubled later
      · have front : doubled (c :: more) = c :: doubled more := by
          simp [doubled, quote]
        rw [front]
        exact .char quote (ordinary c List.mem_cons_self) later

/-- Printed text is read as the text where a token or the end follows. -/
theorem textRun_printText (text : List Char) (stops : ∀ c ∈ rest.head?, Special inPlural c) :
    TextRun inPlural (printText inPlural text ++ rest) text rest := by
  have closed : rest.head? ≠ some '\'' := fun quote =>
    not_special_apostrophe (stops '\'' quote)
  obtain ⟨split, ordinary, token⟩ :=
    longestRun_takeWhile (fun c => !opensLiteral inPlural c) text
  unfold printText
  generalize text.takeWhile (fun c => !opensLiteral inPlural c) = plain at split ordinary ⊢
  generalize text.dropWhile (fun c => !opensLiteral inPlural c) = special at split token ⊢
  have ordinary : ∀ c ∈ plain, ¬Special inPlural c := fun c there => by
    simpa [special_iff] using ordinary c there
  rw [split]
  cases special with
  | nil => exact textRun_doubled ordinary (.stop stops)
  | cons c more =>
      have opens : Special inPlural c := by simpa [special_iff] using token c rfl
      have quote : c ≠ '\'' := by
        rintro rfl
        exact not_special_apostrophe opens
      have literal : Literal (c :: (doubled more ++ '\'' :: rest)) (c :: more) rest :=
        .char quote (literal_doubled closed more)
      have run := textRun_doubled ordinary (.quoted opens literal (.stop stops))
      simpa using run

theorem TextRun.of_special {chars : List Char} (h : TextRun inPlural text chars rest)
    (front : ∀ c ∈ text.head?, Special inPlural c) : chars = [] ∧ rest = text := by
  cases h with
  | stop _ => exact ⟨rfl, rfl⟩
  | doubled _ | quoted _ _ _ | apostrophe _ _ =>
      exact absurd (front '\'' rfl) not_special_apostrophe
  | char _ ordinary _ => exact absurd (front _ rfl) ordinary

/-- Text in print is put in front of a message that starts with no text. -/
theorem Elements.printText {value : String} {others : Message}
    (h : Elements context depth inPlural text others rest)
    (front : ∀ c ∈ text.head?, Special inPlural c) (some : value ≠ "") :
    Elements context depth inPlural (printText inPlural value.toList ++ text)
      (.text value :: others) rest := by
  have first : ∀ message, withText value.toList message = .text value :: message := by
    intro message
    rw [withText, if_neg (by simpa using some), String.ofList_toList]
  have run := textRun_printText value.toList front
  cases h with
  | last own closed =>
      obtain ⟨rfl, rfl⟩ := own.of_special front
      exact first [] ▸ .last run closed
  | number own others =>
      obtain ⟨rfl, rfl⟩ := own.of_special front
      exact first (.number :: _) ▸ .number run others
  | argument own argument others =>
      obtain ⟨rfl, rfl⟩ := own.of_special front
      exact first (_ :: _) ▸ .argument run argument others

/-! ## Words, styles and offsets -/

/-- No white space stands in front of a character that is none. -/
theorem Blanks.none {c : Char} (h : isBlank c = false) (rest : List Char) :
    Blanks (c :: rest) (c :: rest) := ⟨[], rfl, by simp, by simpa using h⟩

theorem not_isBlank_of_isWordCharacter {c : Char} (h : isWordCharacter c = true) :
    isBlank c = false := by
  simp only [isWordCharacter, Bool.not_eq_true', Bool.or_eq_false_iff] at h
  exact h.1.1.1.1.1

theorem not_isBlank_of_isAsciiDigit {c : Char} (h : isAsciiDigit c = true) :
    isBlank c = false := by
  have digit : '0' ≤ c ∧ c ≤ '9' := by simpa [isAsciiDigit] using h
  have low : 0x30 ≤ c.toNat := digit.1
  have high : c.toNat ≤ 0x39 := digit.2
  simp only [isBlank, Bool.or_eq_false_iff, Bool.and_eq_false_iff, decide_eq_false_iff_not,
    beq_eq_false_iff_ne]
  omega

variable {word : String}

/-- A word is read up to a character that is in none. -/
theorem IsWord.read (h : IsWord word) {c : Char} (stop : isWordCharacter c = false)
    (rest : List Char) : Word (word.toList ++ c :: rest) word (c :: rest) :=
  ⟨⟨rfl, h.2, by simpa using stop⟩, h.1⟩

theorem IsWord.blanks (h : IsWord word) (rest : List Char) :
    Blanks (word.toList ++ rest) (word.toList ++ rest) := by
  obtain ⟨c, more, first⟩ := List.exists_cons_of_ne_nil (mt String.toList_eq_nil_iff.mp h.1)
  rw [first]
  exact .none (not_isBlank_of_isWordCharacter (h.2 c (by simp [first]))) _

theorem IsStyle.read {style : String} (h : IsStyle style) :
    Style style.toList (Option.some style) := by
  have read : Style ([] ++ style.toList ++ []) (Option.some style) :=
    .text h.some (by simp) (by simp) h.starts h.ends
  simpa using read

/-- A printed offset is read up to the blank behind it. -/
theorem offset_print (offset : Nat) (rest : List Char) :
    Offset (offsetMark ++ (Nat.toDigits 10 offset ++ ' ' :: rest)) offset (' ' :: rest) := by
  obtain ⟨some, digits⟩ := isDigits_toDigits offset
  have blanks : Blanks (Nat.toDigits 10 offset ++ ' ' :: rest)
      (Nat.toDigits 10 offset ++ ' ' :: rest) := by
    obtain ⟨c, more, first⟩ := List.exists_cons_of_ne_nil some
    rw [first]
    exact .none (not_isBlank_of_isAsciiDigit (digits c (by simp [first]))) _
  have value := numeral_ten digits
  rw [numeral_toDigits] at value
  have run : LongestRun isAsciiDigit (Nat.toDigits 10 offset ++ ' ' :: rest)
      (Nat.toDigits 10 offset) (' ' :: rest) := by
    refine ⟨rfl, digits, ?_⟩
    rintro _ ⟨⟩
    rfl
  have read := Offset.present blanks run some
  rwa [← value] at read

/-! ## What is printed is read -/

variable {permitted : Permitted}

/-- A message in print that starts with no text starts with a token, if there is any of it. -/
theorem WellFormed.special_head? {others : Message}
    (h : WellFormed context permitted depth inPlural others)
    (apart : ∀ value, others.head? ≠ some (.text value)) (closed : ∀ c ∈ rest.head?, c = '\x7d') :
    ∀ c ∈ (printMessage inPlural others ++ rest).head?, Special inPlural c := by
  cases h with
  | nil =>
      rw [printMessage, List.nil_append]
      exact fun c there => .inr (.inl (closed c there))
  | @cons _ _ element more fits _ _ =>
      rw [printMessage]
      cases fits with
      | @text _ _ value _ => exact absurd rfl (apart value)
      | number inside =>
          rw [Element.print]
          rintro _ ⟨⟩
          exact .inr (.inr ⟨rfl, inside⟩)
      | argument _ | select _ _ _ _ | plural _ _ _ _ _ =>
          rw [Element.print]
          rintro _ ⟨⟩
          exact .inl rfl
      | @format _ _ _ _ style _ _ _ _ =>
          cases style with
          | none | some _ =>
              rw [Element.print]
              rintro _ ⟨⟩
              exact .inl rfl

/-- An element is derived from its print, whatever stands behind it. -/
def Element.Printed (context : Context) (depth : Nat) (inPlural : Bool) (element : Element) : Prop :=
  ∀ rest, ∃ opened, element.print inPlural ++ rest = '\x7b' :: opened ∧
    Argument context depth inPlural opened element rest

/-- Cases are derived from their print up to the closing brace of their choice. -/
def PrintedCases (context : Context) (depth : Nat) (inPlural : Bool)
    (categories : Option (List String)) (cases : Cases) : Prop :=
  ∀ rest, CaseList context depth inPlural categories (printCases inPlural cases ++ '\x7d' :: rest)
    cases ('\x7d' :: rest)

variable {name kind : String} {cases : Cases}

theorem printed_argument (word : IsWord name) :
    (Element.argument name).Printed context depth inPlural := fun rest => by
  refine ⟨name.toList ++ '\x7d' :: rest, by simp [Element.print], ?_⟩
  exact .plain (word.blanks _) (word.read rfl _) (.none rfl _)

theorem printed_format {style : Option String} (word : IsWord name) (kindWord : IsWord kind)
    (other : kind ∉ choiceKinds) (fits : ∀ written ∈ style, IsStyle written) :
    (Element.format name kind style).Printed context depth inPlural := fun rest => by
  cases style with
  | none =>
      refine ⟨name.toList ++ ',' :: (kind.toList ++ '\x7d' :: rest), by simp [Element.print], ?_⟩
      exact .format (word.blanks _) (word.read rfl _) (.none rfl _) (kindWord.blanks _)
        (kindWord.read rfl _) other (.none rfl _)
  | some style =>
      have written := fits style rfl
      refine ⟨name.toList ++ ',' :: (kind.toList ++ (',' :: style.toList ++ '\x7d' :: rest)),
        by simp [Element.print], ?_⟩
      exact .styled (word.blanks _) (word.read rfl _) (.none rfl _) (kindWord.blanks _)
        (kindWord.read rfl _) other (.none rfl _) written.braceless written.read

theorem printed_select (word : IsWord name) (shallow : (depth : Int) < context.maxDepth)
    (complete : CompleteCases cases)
    (list : PrintedCases context (depth + 1) inPlural none cases) :
    (Element.select name cases).Printed context depth inPlural := fun rest => by
  have kind : IsWord "select" := by decide
  have skipped := (list rest).of_skipBlanks (blanks_skipBlanks _).skipped.symm
  refine ⟨name.toList ++ ',' :: ("select".toList ++ ',' ::
    (printCases inPlural cases ++ '\x7d' :: rest)), by simp [Element.print], ?_⟩
  exact .choice (word.blanks _) (word.read rfl _) (.none rfl _) (kind.blanks _) (kind.read rfl _)
    (by decide) (.none rfl _) (blanks_skipBlanks _) shallow (.select skipped complete)

theorem printed_plural {ordinal : Bool} {offset : Int} (word : IsWord name) (digits : 0 ≤ offset)
    (shallow : (depth : Int) < context.maxDepth) (complete : CompleteCases cases)
    (list : PrintedCases context (depth + 1) true (some (context.categories ordinal)) cases) :
    (Element.plural name offset ordinal cases).Printed context depth inPlural := fun rest => by
  have kind : IsWord (pluralKind ordinal) := by cases ordinal <;> decide
  have known : pluralKind ordinal ∈ choiceKinds := by cases ordinal <;> decide
  -- a blank ends the digits of the offset
  have blank : skipBlanks (printCases true cases ++ '\x7d' :: rest) =
      skipBlanks (' ' :: (printCases true cases ++ '\x7d' :: rest)) := rfl
  have behind := (list rest).of_skipBlanks blank
  refine ⟨name.toList ++ ',' :: ((pluralKind ordinal).toList ++ ',' ::
    (offsetMark ++ (Nat.toDigits 10 offset.toNat ++ ' ' ::
      (printCases true cases ++ '\x7d' :: rest)))), by simp [Element.print], ?_⟩
  refine .choice (word.blanks _) (word.read rfl _) (.none rfl _) (kind.blanks _) (kind.read rfl _)
    known (.none rfl _) (.none rfl _) shallow ?_
  have number : (offset.toNat : Int) = offset := Int.toNat_of_nonneg digits
  rw [← number]
  cases ordinal with
  | false => exact .plural (offset_print offset.toNat _) behind complete
  | true => exact .ordinal (offset_print offset.toNat _) behind complete

/-- An element in print is put in front of a message. -/
theorem Elements.print_cons {element : Element} {others : Message}
    (fits : element.WellFormed context permitted depth inPlural)
    (printed : (∀ value, element ≠ .text value) → element ≠ .number →
      element.Printed context depth inPlural)
    (front : ∀ value, element = .text value → ∀ c ∈ text.head?, Special inPlural c)
    (behind : Elements context depth inPlural text others rest) :
    Elements context depth inPlural (element.print inPlural ++ text) (element :: others) rest := by
  cases element with
  | text value =>
      cases fits with
      | text some =>
          rw [Element.print]
          exact behind.printText (front value rfl) some
  | number =>
      cases fits with
      | number inside =>
          rw [Element.print]
          refine .number (.stop ?_) behind
          rintro _ ⟨⟩
          exact .inr (.inr ⟨rfl, inside⟩)
  | argument | format | select | plural =>
      obtain ⟨opened, split, argument⟩ := printed (by simp) (by simp) text
      rw [split]
      refine .argument (.stop ?_) argument behind
      rintro _ ⟨⟩
      exact .inl rfl

mutual
-- A message is derived from its end: what is printed behind an element is derived already, and where
-- that starts decides whether text in front of it ends there.
theorem WellFormed.elements {depth : Nat} {inPlural : Bool} {message : Message} :
    WellFormed context .grammatical depth inPlural message →
      ∀ rest, (∀ c ∈ rest.head?, c = '\x7d') →
        Elements context depth inPlural (printMessage inPlural message ++ rest) message rest
  | .nil, rest, closed => by
      rw [printMessage, List.nil_append]
      exact .last (.stop fun c there => .inr (.inl (closed c there))) closed
  | .cons fits apart others, rest, closed => by
      rw [printMessage, List.append_assoc]
      refine .print_cons fits fits.printed (fun value text => ?_) (others.elements rest closed)
      exact others.special_head? (fun after => apart value after text) closed

theorem Element.WellFormed.printed {depth : Nat} {inPlural : Bool} {element : Element} :
    element.WellFormed context .grammatical depth inPlural →
      (∀ value, element ≠ .text value) → element ≠ .number →
        element.Printed context depth inPlural
  | .text _, apart, _ => absurd rfl (apart _)
  | .number _, _, apart => absurd rfl apart
  | .argument word, _, _ => printed_argument word
  | .format word kindWord other fits, _, _ => printed_format word kindWord other fits
  | .select word shallow complete fits, _, _ =>
      printed_select word shallow complete fits.printed
  | .plural word digits shallow complete fits, _, _ =>
      printed_plural word digits shallow complete fits.printed

theorem WellFormedCases.printed {depth : Nat} {inPlural : Bool}
    {categories : Option (List String)} {cases : Cases} :
    WellFormedCases context .grammatical depth inPlural categories cases →
      PrintedCases context depth inPlural categories cases
  | .nil, _ => .nil (.none rfl _)
  | .cons word allowed fits more, rest => by
      rw [printCases, List.append_assoc, List.cons_append, List.append_assoc, List.cons_append]
      refine .cons (word.blanks _) (word.read rfl _) allowed (.none rfl _) (fits.elements _ ?_)
        (more.printed rest)
      rintro _ ⟨⟩
      rfl
end

/-- A printed message is read as the message. -/
theorem parse_print_of_wellFormed {message : Message}
    (h : WellFormed context .grammatical 0 false message) :
    parse context (print message) = .ok message := by
  have derived := h.elements [] (by simp)
  rw [List.append_nil] at derived
  exact (parse_iff_parseText.trans parseText_iff).mpr derived

/-- What texts are read as is exactly the well-formed messages: nothing else comes out of the parser,
and each of them has a text, its print. -/
theorem parse_image (context : Context) :
    (∀ message, (∃ text, parse context text = .ok message) ↔
      WellFormed context .grammatical 0 false message) ∧
    ∀ message, WellFormed context .grammatical 0 false message →
      parse context (print message) = .ok message := by
  refine ⟨fun message => ⟨?_, fun fits => ?_⟩, fun message fits => parse_print_of_wellFormed fits⟩
  · rintro ⟨text, read⟩
    exact wellFormed_of_parse read
  · exact ⟨print message, parse_print_of_wellFormed fits⟩

/-- A format of a type that is kept for choices. -/
def selectFormat : Message := [.format "n" "select" none]

/-- A plural choice with an offset below zero. -/
def pluralBelowZero : Message := [.plural "n" (-1) false [("other", [])]]

/-- The types and the offsets cannot be left open: a type that is kept for choices is a word, and no
text is read as a format of it; a number below zero is a number, and no text is read as a choice with
it as the offset. -/
theorem parse_ne_ungrammatical :
    (WellFormed (.ofCategories [] [] 100) .all 0 false selectFormat ∧
      ∀ text, parse (.ofCategories [] [] 100) text ≠ .ok selectFormat) ∧
    (WellFormed (.ofCategories [] [] 100) .all 0 false pluralBelowZero ∧
      ∀ text, parse (.ofCategories [] [] 100) text ≠ .ok pluralBelowZero) := by
  refine ⟨⟨?_, fun text read => ?_⟩, ?_, fun text read => ?_⟩
  · exact (Element.WellFormed.format (by decide) (by decide) trivial (by simp)).alone
  · cases wellFormed_of_parse read with
    | cons fits _ _ =>
        cases fits with
        | format _ _ other _ => exact other (by decide)
  · have other : KeyAllowed (some ["other"]) "other" := by simp [KeyAllowed]
    refine (Element.WellFormed.plural (by decide) trivial (by decide) ?_ ?_).alone
    · exact ⟨by decide, by decide⟩
    · exact .cons (by decide) other .nil .nil
  · cases wellFormed_of_parse read with
    | cons fits _ _ =>
        cases fits with
        | plural _ digits _ _ _ =>
            have below : (0 : Int) ≤ -1 := digits
            omega

end MessageCatalog.Message
