import MessageCatalog.Proofs.Message.Exact

/-!
# MessageCatalog.Proofs.Message.WellFormed -- the messages that texts are read as

What can be said of a message without its text: text is never empty and never beside other text, a
number stands only where there is a plural choice around it, words are words, the cases of a choice
are complete and have keys that their choice may have, and choices nest no deeper than the settings
allow. Every message that the grammar derives is of this form.

Which types a format may have and which offsets a plural choice is left open. The grammar keeps the
types of choices for choices and has no offsets below zero, and the other conditions do not say so.
-/

namespace MessageCatalog.Message

open MessageCatalog.Text

/-! ## The form of messages -/

/-- A name, a type or a key. -/
def IsWord (word : String) : Prop := word ≠ "" ∧ ∀ c ∈ word.toList, isWordCharacter c = true

instance (word : String) : Decidable (IsWord word) :=
  decidable_of_iff (word ≠ "" ∧ word.toList.all isWordCharacter = true) (by simp [IsWord])

/-- A style: not empty, without white space at its ends and without braces. -/
structure IsStyle (style : String) : Prop where
  some : style ≠ ""
  starts : ∀ c ∈ style.toList.head?, isBlank c = false
  ends : ∀ c ∈ style.toList.getLast?, isBlank c = false
  braceless : ∀ c ∈ style.toList, c ≠ '\x7b' ∧ c ≠ '\x7d'

/-- The categories of the kind of a plural choice. -/
def Context.categories (context : Context) (ordinal : Bool) : List String :=
  if ordinal then context.ordinal else context.cardinal

/-- What the other conditions leave open: the types of formats and the offsets of plural choices. -/
structure Permitted where
  kind : String → Prop
  offset : Int → Prop

/-- The types and offsets that the grammar has: a type is none of a choice, an offset is written with
digits alone. -/
def Permitted.grammatical : Permitted := ⟨(· ∉ choiceKinds), (0 ≤ ·)⟩

/-- Any type and any offset. -/
def Permitted.all : Permitted := ⟨fun _ => True, fun _ => True⟩

mutual
/-- A message below some choices, inside or outside of a plural choice. -/
inductive WellFormed (context : Context) (permitted : Permitted) : Nat → Bool → Message → Prop where
  | nil {depth : Nat} {inPlural : Bool} : WellFormed context permitted depth inPlural []
  | cons {depth : Nat} {inPlural : Bool} {element : Element} {others : Message} :
      Element.WellFormed context permitted depth inPlural element →
      (∀ before after, element = .text before → others.head? ≠ some (.text after)) →
      WellFormed context permitted depth inPlural others →
      WellFormed context permitted depth inPlural (element :: others)

/-- An element of such a message. -/
inductive Element.WellFormed (context : Context) (permitted : Permitted) :
    Nat → Bool → Element → Prop where
  | text {depth : Nat} {inPlural : Bool} {value : String} :
      value ≠ "" → Element.WellFormed context permitted depth inPlural (.text value)
  | argument {depth : Nat} {inPlural : Bool} {name : String} :
      IsWord name → Element.WellFormed context permitted depth inPlural (.argument name)
  | number {depth : Nat} {inPlural : Bool} :
      inPlural = true → Element.WellFormed context permitted depth inPlural .number
  | format {depth : Nat} {inPlural : Bool} {name kind : String} {style : Option String} :
      IsWord name → IsWord kind → permitted.kind kind → (∀ written ∈ style, IsStyle written) →
      Element.WellFormed context permitted depth inPlural (.format name kind style)
  | select {depth : Nat} {inPlural : Bool} {name : String} {cases : Cases} :
      IsWord name → (depth : Int) < context.maxDepth → CompleteCases cases →
      WellFormedCases context permitted (depth + 1) inPlural none cases →
      Element.WellFormed context permitted depth inPlural (.select name cases)
  | plural {depth : Nat} {inPlural : Bool} {name : String} {offset : Int} {ordinal : Bool}
      {cases : Cases} :
      IsWord name → permitted.offset offset → (depth : Int) < context.maxDepth → CompleteCases cases →
      WellFormedCases context permitted (depth + 1) true (some (context.categories ordinal)) cases →
      Element.WellFormed context permitted depth inPlural (.plural name offset ordinal cases)

/-- The cases of a choice. -/
inductive WellFormedCases (context : Context) (permitted : Permitted) :
    Nat → Bool → Option (List String) → Cases → Prop where
  | nil {depth : Nat} {inPlural : Bool} {categories : Option (List String)} :
      WellFormedCases context permitted depth inPlural categories []
  | cons {depth : Nat} {inPlural : Bool} {categories : Option (List String)} {key : String}
      {body : Message} {others : Cases} :
      IsWord key → KeyAllowed categories key → WellFormed context permitted depth inPlural body →
      WellFormedCases context permitted depth inPlural categories others →
      WellFormedCases context permitted depth inPlural categories ((key, body) :: others)
end

/-! ## What the grammar derives -/

variable {context : Context} {permitted : Permitted} {depth : Nat} {inPlural : Bool}

theorem Word.isWord {text rest : List Char} {word : String} (h : Word text word rest) :
    IsWord word := ⟨h.2, h.1.2.1⟩

/-- An element by itself is a message. -/
theorem Element.WellFormed.alone {element : Element}
    (h : Element.WellFormed context permitted depth inPlural element) :
    Message.WellFormed context permitted depth inPlural [element] :=
  .cons h (fun _ _ _ => by simp) .nil

/-- What a written style stands for is a style, when no brace was written. -/
theorem Style.isStyle {written : List Char} {style : Option String} (h : Style written style)
    (braceless : ∀ c ∈ written, c ≠ '\x7b' ∧ c ≠ '\x7d') : ∀ found ∈ style, IsStyle found := by
  cases h with
  | blank _ => simp
  | text some _ _ starts ends =>
      rintro found ⟨⟩
      exact ⟨some, starts, ends, fun c there => braceless c (by simp [there])⟩

/-- Text in front of an element that is none. -/
theorem WellFormed.withText {element : Element} {others : Message} (chars : List Char)
    (apart : ∀ value, element ≠ .text value)
    (h : WellFormed context permitted depth inPlural (element :: others)) :
    WellFormed context permitted depth inPlural (withText chars (element :: others)) := by
  rw [Message.withText]
  split
  · exact h
  · next some =>
      refine .cons (.text (by simpa using some)) (fun _ after _ same => ?_) h
      exact apart after (Option.some.inj same)

theorem WellFormed.text (chars : List Char) :
    WellFormed context permitted depth inPlural (Message.withText chars []) := by
  rw [Message.withText]
  split
  · exact .nil
  · next some =>
      have value : String.ofList chars ≠ "" := by simpa using some
      exact (Element.WellFormed.text value).alone

mutual
theorem Elements.wellFormed {depth : Nat} {inPlural : Bool} {text rest : List Char}
    {message : Message} : Elements context depth inPlural text message rest →
      WellFormed context .grammatical depth inPlural message
  | .last _ _ => .text _
  | .number run others => by
      -- a number sign ends text only inside a plural choice
      have inside : inPlural = true := by simpa [Special] using run.stops '#' rfl
      exact .withText _ nofun (.cons (.number inside) nofun others.wellFormed)
  | .argument _ argument others => by
      obtain ⟨apart, fits⟩ := argument.wellFormed
      exact .withText _ apart (.cons fits (fun _ _ same => absurd same (apart _)) others.wellFormed)

theorem Argument.wellFormed {depth : Nat} {inPlural : Bool} {text rest : List Char}
    {element : Element} : Argument context depth inPlural text element rest →
      (∀ value, element ≠ .text value) ∧
        element.WellFormed context .grammatical depth inPlural
  | .plain _ word _ => ⟨nofun, .argument word.isWord⟩
  | .format _ word _ _ kind other _ =>
      ⟨nofun, .format word.isWord kind.isWord other (by simp)⟩
  | .styled _ word _ _ kind other _ braceless style =>
      ⟨nofun,
        .format word.isWord kind.isWord other (style.isStyle braceless)⟩
  | .choice _ word _ _ _ _ _ _ shallow choice => choice.wellFormed word.isWord shallow

theorem Choice.wellFormed {depth : Nat} {inPlural : Bool} {name kind : String}
    {text rest : List Char} {element : Element} :
    Choice context depth inPlural name kind text element rest → IsWord name →
      (depth : Int) < context.maxDepth →
        (∀ value, element ≠ .text value) ∧
          element.WellFormed context .grammatical depth inPlural
  | .select list complete, word, shallow =>
      ⟨nofun, .select word shallow complete list.wellFormed⟩
  | .plural _ list complete, word, shallow =>
      ⟨nofun, .plural word (Int.natCast_nonneg _) shallow complete list.wellFormed⟩
  | .ordinal _ list complete, word, shallow =>
      ⟨nofun, .plural word (Int.natCast_nonneg _) shallow complete list.wellFormed⟩

theorem CaseList.wellFormed {depth : Nat} {inPlural : Bool} {categories : Option (List String)}
    {text rest : List Char} {cases : Cases} :
    CaseList context depth inPlural categories text cases rest →
      WellFormedCases context .grammatical depth inPlural categories cases
  | .nil _ => .nil
  | .cons _ word allowed _ body others =>
      .cons word.isWord allowed body.wellFormed others.wellFormed
end

/-- A text is read as nothing but well-formed messages. -/
theorem wellFormed_of_parse {text : List Char} {message : Message}
    (h : parse context text = .ok message) :
    WellFormed context .grammatical 0 false message :=
  Elements.wellFormed (((parse_iff_parseText.trans parseText_iff).mp h))

end MessageCatalog.Message
