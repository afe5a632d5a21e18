import MessageCatalog.Proofs.Markup.Rendered
import MessageCatalog.Proofs.Markup.Space
import MessageCatalog.Proofs.Markup.Token

/-!
# MessageCatalog.Proofs.Markup.Escaped -- white space in escaped text

The references that stand for the characters of markup hold no white space. So text collapses and is
trimmed in its escaped form as it does before, and white space stands in the one where it stands in
the other. Values that the minifier writes in double quotes are read as they were, too.
-/

namespace MessageCatalog.Markup

open MessageCatalog.Text

/-! ## Values in double quotes -/

/-- A character of a value as the minifier writes it. -/
def escapeValueChar (c : Char) : List Char :=
  if c == '&' then "&amp;".toList else if c == '"' then "&quot;".toList else [c]

/-- A character of a value is written as a reference for it or as itself. -/
theorem escapeValueChar_cases (c : Char) :
    (∃ w : Written, c = w.char ∧ escapeValueChar c = w.text) ∨
      c ≠ '&' ∧ c ≠ '"' ∧ escapeValueChar c = [c] := by
  simp only [escapeValueChar, beq_iff_eq]
  split
  · next same => exact Or.inl ⟨.ampersand, same, by decide⟩
  split
  · next same => exact Or.inl ⟨.quotation, same, by decide⟩
  next ampersand quotation => exact Or.inr ⟨ampersand, quotation, rfl⟩

theorem resolve_escapeValue (value : List Char) : resolve (escapeValue value) = value := by
  show resolveFrom 0 (value.flatMap escapeValueChar) = value
  induction value with
  | nil => rfl
  | cons c rest ih =>
      rw [List.flatMap_cons]
      rcases escapeValueChar_cases c with ⟨w, rfl, text⟩ | ⟨ampersand, -, text⟩
      · rw [text, resolveFrom_written, ih]
      · rw [text, List.singleton_append, resolveFrom_cons ampersand, ih]

theorem quotation_escapeValue (value : List Char) : '"' ∉ escapeValue value := by
  show '"' ∉ value.flatMap escapeValueChar
  rw [List.mem_flatMap]
  rintro ⟨c, -, there⟩
  rcases escapeValueChar_cases c with ⟨w, -, text⟩ | ⟨-, quotation, text⟩
  · rw [text] at there
    cases w <;> exact absurd there (by decide)
  · rw [text] at there
    exact quotation (List.mem_singleton.mp there).symm

/-- An attribute as the minifier writes it. -/
def minifiedAttribute : Quoting := fun name value => ⟨name, '"', escapeValue value⟩

theorem faithful_minifiedAttribute : Quoting.Faithful minifiedAttribute where
  proper := fun isName value => ⟨isName, Or.inl rfl, quotation_escapeValue value⟩
  read := by
    intro name value
    rw [WrittenAttribute.read, minifiedAttribute, resolve_escapeValue]

/-- A start tag with its values, as the minifier writes it. -/
theorem writeStartTag_asRead (name : String) (attributes : List (String × List Char)) :
    writeStartTag name (asRead attributes) false =
      textOf ((LineToken.opens name attributes).chunks minifiedAttribute) := by
  have each : ∀ a : String × List Char,
      Attribute.write ⟨a.1, some a.2⟩ = (minifiedAttribute a.1 a.2).text := by
    intro a
    simp [Attribute.write, minifiedAttribute, WrittenAttribute.text]
  have all : (asRead attributes).flatMap Attribute.write =
      (attributes.map fun a => minifiedAttribute a.1 a.2).flatMap WrittenAttribute.text := by
    simp only [asRead, List.flatMap_map, each]
  simp [writeStartTag, all, LineToken.chunks, textOf, Chunk.text, startTagText, attributesText]

/-! ## Escaped text -/

theorem escapeText_cons (c : Char) (chars : List Char) :
    escapeText (c :: chars) = escapeTextChar c ++ escapeText chars := List.flatMap_cons

theorem escapeText_append (chars more : List Char) :
    escapeText (chars ++ more) = escapeText chars ++ escapeText more := List.flatMap_append

theorem escapeTextChar_space {c : Char} (space : isMarkupSpace c = true) :
    escapeTextChar c = [c] := by
  rcases textChunk_cases c with ⟨w, rfl, -⟩ | ⟨-, -, text⟩
  · cases w <;> cases space
  · exact text

/-- The reference for a character holds no white space. -/
theorem Written.solid (w : Written) : ∀ c ∈ w.text, isMarkupSpace c = false := by
  cases w <;> simp [Written.text, Written.name, isMarkupSpace]

/-- A character other than white space is written without white space. -/
theorem escapeTextChar_solid {c : Char} (other : isMarkupSpace c = false) :
    escapeTextChar c ≠ [] ∧ ∀ d ∈ escapeTextChar c, isMarkupSpace d = false := by
  rcases textChunk_cases c with ⟨w, -, -, text⟩ | ⟨-, -, text⟩
  · rw [text]
    exact ⟨List.cons_ne_nil _ _, w.solid⟩
  · rw [text]
    exact ⟨List.cons_ne_nil _ _, fun d there => List.mem_singleton.mp there ▸ other⟩

theorem escapeText_injective : Function.Injective escapeText := by
  intro chars more same
  have read := congrArg resolve same
  rwa [escapeText, escapeText, resolve_flatMap writtenAs_escapeTextChar,
    resolve_flatMap writtenAs_escapeTextChar] at read

theorem escapeText_eq_nil {chars : List Char} : escapeText chars = [] ↔ chars = [] :=
  escapeText_injective.eq_iff' rfl

/-- White space is written as it is. -/
theorem escapeText_blank {chars : List Char} (blank : ∀ c ∈ chars, isMarkupSpace c = true) :
    escapeText chars = chars := by
  induction chars with
  | nil => rfl
  | cons c rest ih =>
      rw [List.forall_mem_cons] at blank
      rw [escapeText_cons, escapeTextChar_space blank.1, ih blank.2, List.singleton_append]

theorem blank_escapeText {chars : List Char} :
    (∀ c ∈ escapeText chars, isMarkupSpace c = true) ↔ ∀ c ∈ chars, isMarkupSpace c = true := by
  constructor
  · intro blank c there
    by_contra other
    have solid := escapeTextChar_solid (Bool.eq_false_iff.mpr other)
    obtain ⟨d, inside⟩ := List.exists_mem_of_ne_nil _ solid.1
    have space := blank d (List.mem_flatMap.mpr ⟨c, there, inside⟩)
    rw [solid.2 d inside] at space
    cases space
  · intro blank
    rwa [escapeText_blank blank]

theorem collapseFrom_escapeText (inRun : Bool) (chars : List Char) :
    collapseFrom inRun (escapeText chars) = escapeText (collapseFrom inRun chars) := by
  induction chars generalizing inRun with
  | nil => rfl
  | cons c rest ih =>
      rw [escapeText_cons]
      by_cases space : isMarkupSpace c = true
      · rw [escapeTextChar_space space, List.singleton_append, collapseFrom_space space,
          collapseFrom_space space, ih]
        split
        · rfl
        · rw [escapeText_cons]
          rfl
      · have other := Bool.eq_false_iff.mpr space
        obtain ⟨some, solid⟩ := escapeTextChar_solid other
        rw [collapseFrom_solid some solid, collapseFrom_other other, escapeText_cons, collapse, ih]

/-- Escaped text collapses as the text does. -/
theorem collapse_escapeText (chars : List Char) :
    collapse (escapeText chars) = escapeText (collapse chars) := collapseFrom_escapeText false chars

theorem spaced_escapeText {chars : List Char} : Spaced (escapeText chars) ↔ Spaced chars := by
  rw [← collapse_eq_self, ← collapse_eq_self, collapse_escapeText, escapeText_injective.eq_iff]

/-- Escaped text has white space at its ends where the text has. -/
theorem Trimmed.escapeText {previous next : Option Piece} {chars : List Char}
    (h : Trimmed previous next chars) : Trimmed previous next (Markup.escapeText chars) where
  front := by
    intro edge d first
    cases chars with
    | nil => cases first
    | cons c rest =>
        obtain ⟨some, solid⟩ := escapeTextChar_solid (h.front edge c rfl)
        rw [escapeText_cons, List.head?_append, Option.or_of_isSome (List.isSome_head?.mpr some)]
          at first
        exact solid d (List.mem_of_mem_head? first)
  back := by
    intro edge d last
    cases chars using List.reverseRecOn with
    | nil => cases last
    | append_singleton front c =>
        obtain ⟨some, solid⟩ := escapeTextChar_solid (h.back edge c (by simp))
        have end' : Markup.escapeText [c] = escapeTextChar c := List.flatMap_singleton ..
        rw [escapeText_append, end', List.getLast?_append,
          Option.or_of_isSome (List.getLast?_isSome.mpr some)] at last
        exact solid d (List.mem_of_getLast? last)

/-- Escaped text is trimmed as the text is. -/
theorem trimText_escapeText (previous next : Option Piece) (chars : List Char) :
    trimText previous next (escapeText chars) = escapeText (trimText previous next chars) := by
  obtain ⟨before, after, split, blankBefore, blankAfter, inner, inner'⟩ :=
    trimText_split previous next chars
  have trimmed := trimmed_trimText previous next chars
  by_cases none : trimText previous next chars = []
  · -- only white space was there, which is written as it is
    have blank : ∀ c ∈ chars, isMarkupSpace c = true := by
      rw [split, none, List.append_nil]
      exact List.forall_mem_append.mpr ⟨blankBefore, blankAfter⟩
    rw [escapeText_blank blank, none]
    rfl
  · generalize trimText previous next chars = text at *
    rw [split, escapeText_append, escapeText_append, escapeText_blank blankBefore,
      escapeText_blank blankAfter]
    exact trimText_append (fun nothing => none (escapeText_eq_nil.mp nothing)) trimmed.escapeText
      blankBefore blankAfter inner inner'

end MessageCatalog.Markup
