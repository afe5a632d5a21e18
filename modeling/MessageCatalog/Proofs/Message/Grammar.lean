import Mathlib.Data.Nat.Digits.Defs
import MessageCatalog.Message.Parser
import MessageCatalog.Proofs.Text.Run

/-!
# MessageCatalog.Proofs.Message.Grammar -- the grammar of messages as a relation

The notation of messages stated without a reader. Every predicate relates a text, what the front of
it stands for, and the text behind that front, so that a rule can ask what comes next: an apostrophe
is a quotation mark or a plain character according to the character behind it, and a word ends only
where no character of a word follows.

The leaves come first: white space, words, literals, runs of text, styles, keys and offsets. The
rules above them are mutually recursive and carry how many choices surround a text and whether a
number sign is a token there.
-/

namespace MessageCatalog.Message

open MessageCatalog.Text

/-! ## White space and words -/

/-- White space up to the next character that is none. -/
def Blanks (text rest : List Char) : Prop := ∃ blanks, LongestRun isBlank text blanks rest

/-- A name, a type or a key: the longest run of characters that are neither white space nor one of
the characters of the notation. It is not empty. -/
def Word (text : List Char) (word : String) (rest : List Char) : Prop :=
  LongestRun isWordCharacter text word.toList rest ∧ word ≠ ""

/-! ## Text -/

/-- A character that is a token between two pieces of text: a brace, and inside the cases of a plural
choice a number sign. -/
def Special (inPlural : Bool) (c : Char) : Prop :=
  c = '\x7b' ∨ c = '\x7d' ∨ c = '#' ∧ inPlural = true

/-- The inside of a literal up to its closing apostrophe, the first that stands alone. -/
inductive Literal : List Char → List Char → List Char → Prop where
  | close {rest : List Char} : rest.head? ≠ some '\'' → Literal ('\'' :: rest) [] rest
  | doubled {text chars rest : List Char} :
      Literal text chars rest → Literal ('\'' :: '\'' :: text) ('\'' :: chars) rest
  | char {c : Char} {text chars rest : List Char} :
      c ≠ '\'' → Literal text chars rest → Literal (c :: text) (c :: chars) rest

/-- A run of text up to the next token or the end. -/
inductive TextRun (inPlural : Bool) : List Char → List Char → List Char → Prop where
  | stop {rest : List Char} : (∀ c ∈ rest.head?, Special inPlural c) → TextRun inPlural rest [] rest
  | doubled {text chars rest : List Char} :
      TextRun inPlural text chars rest →
      TextRun inPlural ('\'' :: '\'' :: text) ('\'' :: chars) rest
  | quoted {c : Char} {text literal behind chars rest : List Char} :
      Special inPlural c → Literal (c :: text) literal behind →
      TextRun inPlural behind chars rest →
      TextRun inPlural ('\'' :: c :: text) (literal ++ chars) rest
  | apostrophe {text chars rest : List Char} :
      (∀ c ∈ text.head?, c ≠ '\'' ∧ ¬Special inPlural c) → TextRun inPlural text chars rest →
      TextRun inPlural ('\'' :: text) ('\'' :: chars) rest
  | char {c : Char} {text chars rest : List Char} :
      c ≠ '\'' → ¬Special inPlural c → TextRun inPlural text chars rest →
      TextRun inPlural (c :: text) (c :: chars) rest

/-! ## Styles, keys and offsets -/

/-- What a written style stands for: the text without the white space around it, if any is left. -/
inductive Style : List Char → Option String → Prop where
  | blank {written : List Char} : (∀ c ∈ written, isBlank c = true) → Style written none
  | text {before after : List Char} {style : String} :
      style ≠ "" → (∀ c ∈ before, isBlank c = true) → (∀ c ∈ after, isBlank c = true) →
      (∀ c ∈ style.toList.head?, isBlank c = false) →
      (∀ c ∈ style.toList.getLast?, isBlank c = false) →
      Style (before ++ style.toList ++ after) (some style)

/-- A non-empty run of decimal digits of any script. -/
def Digits (digits : List Char) : Prop := digits ≠ [] ∧ ∀ c ∈ digits, isDecimalDigit c = true

/-- A key that names a number: an equals sign, digits and possibly a fraction. -/
def ExactKey (key : String) : Prop :=
  ∃ digits, Digits digits ∧ (key.toList = '=' :: digits ∨
    ∃ fraction, Digits fraction ∧ key.toList = '=' :: digits ++ '.' :: fraction)

/-- A key that a choice may have: any key where there are no categories, else a category or a
number. -/
def KeyAllowed (categories : Option (List String)) (key : String) : Prop :=
  ∀ valid ∈ categories, key ∈ valid ∨ ExactKey key

/-- The offset of a plural choice, zero where its mark is missing. All digits behind the mark belong
to it. -/
inductive Offset : List Char → Nat → List Char → Prop where
  | absent {text : List Char} : ¬offsetMark <+: text → Offset text 0 text
  | present {text behind digits rest : List Char} :
      Blanks text behind → LongestRun isAsciiDigit behind digits rest → digits ≠ [] →
      Offset (offsetMark ++ text)
        (Nat.ofDigits 10 (digits.reverse.map fun c => c.toNat - '0'.toNat)) rest

/-! ## Rules -/

/-- The types of argument that choose between messages. -/
def choiceKinds : List String := ["select", "plural", "selectordinal"]

/-- The cases of a choice cover everything and do not overlap. -/
def CompleteCases (cases : Cases) : Prop :=
  (cases.map Prod.fst).Nodup ∧ "other" ∈ cases.map Prod.fst

mutual
/-- A message up to a closing brace or the end. Text is an element where there is any. -/
inductive Elements (context : Context) :
    Nat → Bool → List Char → Message → List Char → Prop where
  | last {depth : Nat} {inPlural : Bool} {text chars rest : List Char} :
      TextRun inPlural text chars rest → (∀ c ∈ rest.head?, c = '\x7d') →
      Elements context depth inPlural text (withText chars []) rest
  | number {depth : Nat} {inPlural : Bool} {text chars behind rest : List Char}
      {others : Message} :
      TextRun inPlural text chars ('#' :: behind) →
      Elements context depth inPlural behind others rest →
      Elements context depth inPlural text (withText chars (.number :: others)) rest
  | argument {depth : Nat} {inPlural : Bool} {text chars opened behind rest : List Char}
      {element : Element} {others : Message} :
      TextRun inPlural text chars ('\x7b' :: opened) →
      Argument context depth inPlural opened element behind →
      Elements context depth inPlural behind others rest →
      Elements context depth inPlural text (withText chars (element :: others)) rest

/-- An argument behind its opening brace. -/
inductive Argument (context : Context) :
    Nat → Bool → List Char → Element → List Char → Prop where
  | plain {depth : Nat} {inPlural : Bool} {text t₁ t₂ rest : List Char} {name : String} :
      Blanks text t₁ → Word t₁ name t₂ → Blanks t₂ ('\x7d' :: rest) →
      Argument context depth inPlural text (.argument name) rest
  | format {depth : Nat} {inPlural : Bool} {text t₁ t₂ t₃ t₄ t₅ rest : List Char}
      {name kind : String} :
      Blanks text t₁ → Word t₁ name t₂ → Blanks t₂ (',' :: t₃) →
      Blanks t₃ t₄ → Word t₄ kind t₅ → kind ∉ choiceKinds → Blanks t₅ ('\x7d' :: rest) →
      Argument context depth inPlural text (.format name kind none) rest
  | styled {depth : Nat} {inPlural : Bool} {text t₁ t₂ t₃ t₄ t₅ written rest : List Char}
      {name kind : String} {style : Option String} :
      Blanks text t₁ → Word t₁ name t₂ → Blanks t₂ (',' :: t₃) →
      Blanks t₃ t₄ → Word t₄ kind t₅ → kind ∉ choiceKinds →
      Blanks t₅ (',' :: written ++ '\x7d' :: rest) →
      (∀ c ∈ written, c ≠ '\x7b' ∧ c ≠ '\x7d') → Style written style →
      Argument context depth inPlural text (.format name kind style) rest
  | choice {depth : Nat} {inPlural : Bool} {text t₁ t₂ t₃ t₄ t₅ t₆ t₇ rest : List Char}
      {name kind : String} {element : Element} :
      Blanks text t₁ → Word t₁ name t₂ → Blanks t₂ (',' :: t₃) →
      Blanks t₃ t₄ → Word t₄ kind t₅ → kind ∈ choiceKinds → Blanks t₅ (',' :: t₆) →
      Blanks t₆ t₇ → (depth : Int) < context.maxDepth →
      Choice context depth inPlural name kind t₇ element rest →
      Argument context depth inPlural text element rest

/-- The cases of a choice and its closing brace. The cases of a plural choice make the number sign a
token; those of a selection leave it as it is around them. -/
inductive Choice (context : Context) :
    Nat → Bool → String → String → List Char → Element → List Char → Prop where
  | select {depth : Nat} {inPlural : Bool} {name : String} {text rest : List Char}
      {cases : Cases} :
      CaseList context (depth + 1) inPlural none text cases ('\x7d' :: rest) →
      CompleteCases cases →
      Choice context depth inPlural name "select" text (.select name cases) rest
  | plural {depth : Nat} {inPlural : Bool} {name : String} {text t₁ rest : List Char}
      {offset : Nat} {cases : Cases} :
      Offset text offset t₁ →
      CaseList context (depth + 1) true (some context.cardinal) t₁ cases ('\x7d' :: rest) →
      CompleteCases cases →
      Choice context depth inPlural name "plural" text (.plural name offset false cases) rest
  | ordinal {depth : Nat} {inPlural : Bool} {name : String} {text t₁ rest : List Char}
      {offset : Nat} {cases : Cases} :
      Offset text offset t₁ →
      CaseList context (depth + 1) true (some context.ordinal) t₁ cases ('\x7d' :: rest) →
      CompleteCases cases →
      Choice context depth inPlural name "selectordinal" text (.plural name offset true cases) rest

/-- Cases up to the closing brace of their choice. -/
inductive CaseList (context : Context) :
    Nat → Bool → Option (List String) → List Char → Cases → List Char → Prop where
  | nil {depth : Nat} {inPlural : Bool} {categories : Option (List String)}
      {text rest : List Char} :
      Blanks text ('\x7d' :: rest) →
      CaseList context depth inPlural categories text [] ('\x7d' :: rest)
  | cons {depth : Nat} {inPlural : Bool} {categories : Option (List String)}
      {text t₁ t₂ t₃ t₄ rest : List Char} {key : String} {body : Message} {others : Cases} :
      Blanks text t₁ → Word t₁ key t₂ → KeyAllowed categories key →
      Blanks t₂ ('\x7b' :: t₃) → Elements context depth inPlural t₃ body ('\x7d' :: t₄) →
      CaseList context depth inPlural categories t₄ others rest →
      CaseList context depth inPlural categories text ((key, body) :: others) rest
end

/-- The messages that a whole text writes. -/
def Derives (context : Context) (text : List Char) (message : Message) : Prop :=
  Elements context 0 false text message []

/-! ## What is left -/

variable {context : Context} {depth : Nat} {inPlural : Bool} {text rest : List Char}

theorem Blanks.suffix (h : Blanks text rest) : rest <:+ text := by
  obtain ⟨blanks, split, _⟩ := h
  exact ⟨blanks, split.symm⟩

theorem Word.suffix {word : String} (h : Word text word rest) : rest <:+ text :=
  ⟨word.toList, h.1.1.symm⟩

theorem Literal.suffix {chars : List Char} (h : Literal text chars rest) : rest <:+ text := by
  induction h with
  | close _ => exact List.suffix_cons _ _
  | doubled _ ih => exact ih.trans ((List.suffix_cons _ _).trans (List.suffix_cons _ _))
  | char _ _ ih => exact ih.trans (List.suffix_cons _ _)

theorem TextRun.suffix {chars : List Char} (h : TextRun inPlural text chars rest) :
    rest <:+ text := by
  induction h with
  | stop _ => exact List.suffix_refl _
  | doubled _ ih => exact ih.trans ((List.suffix_cons _ _).trans (List.suffix_cons _ _))
  | quoted _ literal _ ih => exact ih.trans (literal.suffix.trans (List.suffix_cons _ _))
  | apostrophe _ _ ih | char _ _ _ ih => exact ih.trans (List.suffix_cons _ _)

theorem Offset.suffix {offset : Nat} (h : Offset text offset rest) : rest <:+ text := by
  cases h with
  | absent _ => exact List.suffix_refl _
  | present blanks run _ =>
      have digits : rest <:+ _ := ⟨_, run.1.symm⟩
      exact digits.trans (blanks.suffix.trans (List.suffix_append _ _))

/-- What is left behind the head of a choice, or of a format with a style. -/
theorem suffix_head {t₁ t₂ t₃ t₄ t₅ t₆ : List Char} {name kind : String} (blanks : Blanks text t₁)
    (word : Word t₁ name t₂) (comma : Blanks t₂ (',' :: t₃)) (kindBlanks : Blanks t₃ t₄)
    (kindWord : Word t₄ kind t₅) (last : Blanks t₅ t₆) : t₆ <:+ text := by
  have behindName : t₃ <:+ text :=
    ((List.suffix_cons _ _).trans comma.suffix).trans (word.suffix.trans blanks.suffix)
  exact last.suffix.trans (kindWord.suffix.trans (kindBlanks.suffix.trans behindName))

/-- What is left behind the brace that opens a case. -/
theorem suffix_case {t₁ t₂ t₃ : List Char} {key : String} (blanks : Blanks text t₁)
    (word : Word t₁ key t₂) (opened : Blanks t₂ ('\x7b' :: t₃)) : t₃ <:+ text :=
  ((List.suffix_cons _ _).trans opened.suffix).trans (word.suffix.trans blanks.suffix)

mutual
theorem Elements.suffix {depth : Nat} {inPlural : Bool} {text rest : List Char}
    {message : Message} : Elements context depth inPlural text message rest → rest <:+ text
  | .last run _ => run.suffix
  | .number run others => others.suffix.trans ((List.suffix_cons _ _).trans run.suffix)
  | .argument run argument others =>
      others.suffix.trans (((List.suffix_cons _ _).trans argument.suffix).trans
        ((List.suffix_cons _ _).trans run.suffix))

/-- The closing brace of an argument is in its text. -/
theorem Argument.suffix {depth : Nat} {inPlural : Bool} {text rest : List Char}
    {element : Element} : Argument context depth inPlural text element rest → '\x7d' :: rest <:+ text
  | .plain blanks word closed => closed.suffix.trans (word.suffix.trans blanks.suffix)
  | .format blanks word comma kindBlanks kind _ closed =>
      suffix_head blanks word comma kindBlanks kind closed
  | .styled blanks word comma kindBlanks kind _ styled _ _ =>
      (List.suffix_append _ _).trans
        ((List.suffix_cons _ _).trans (suffix_head blanks word comma kindBlanks kind styled))
  | .choice blanks word comma kindBlanks kind _ comma₂ blanks₂ _ choice =>
      choice.suffix.trans (blanks₂.suffix.trans
        ((List.suffix_cons _ _).trans (suffix_head blanks word comma kindBlanks kind comma₂)))

theorem Choice.suffix {depth : Nat} {inPlural : Bool} {name kind : String} {text rest : List Char}
    {element : Element} :
    Choice context depth inPlural name kind text element rest → '\x7d' :: rest <:+ text
  | .select list _ => list.suffix
  | .plural offset list _ | .ordinal offset list _ => list.suffix.trans offset.suffix

theorem CaseList.suffix {depth : Nat} {inPlural : Bool} {categories : Option (List String)}
    {text rest : List Char} {cases : Cases} :
    CaseList context depth inPlural categories text cases rest → rest <:+ text
  | .nil blanks => blanks.suffix
  | .cons blanks word _ opened body others =>
      others.suffix.trans (((List.suffix_cons _ _).trans body.suffix).trans
        (suffix_case blanks word opened))
end

end MessageCatalog.Message
