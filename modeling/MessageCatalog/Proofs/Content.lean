import MessageCatalog.Content
import MessageCatalog.Proofs.Basic
import MessageCatalog.Proofs.Markup.TextContent

/-!
# MessageCatalog.Proofs.Content -- plain text in its final form

Cleaning a message should leave plain text as it is: a text without tags and references whose white
space is single spaces. Its content is the text with references for the characters of markup, so that
it has the text again, and the text is kept as its author wrote it. That holds for every plain text in
which the reader loses no character, and for no other.
-/

namespace MessageCatalog.Content

open MessageCatalog.Config MessageCatalog.Markup

/-- A text without tags and references, its white space single spaces between other characters. -/
structure IsPlain (text : List Char) : Prop where
  bracket : '<' ∉ text
  spaces : SingleSpaces text
  references : Behind
    (fun after => after.head? ≠ some '#' ∧ namedReferenceOf? (nameRun after) = none) text

variable {text : List Char}

theorem IsPlain.bracketless (h : IsPlain text) : Bracketless text :=
  ⟨h.bracket, fun after suffix => (h.references after suffix).1⟩

theorem IsPlain.referenceless (h : IsPlain text) : Referenceless text :=
  fun after suffix => (h.references after suffix).2

/-- The text that a plain text has when its markup is made smaller, if it is. -/
def shrunk (minifier : Option MinifyOptions) (text : List Char) : List Char :=
  match minifier with
  | none => text
  | some _ => respelled text

theorem shrink_plain (minifier : Option MinifyOptions) (h : IsPlain text) :
    shrink minifier text = .ok (shrunk minifier text) := by
  cases minifier with
  | none => rfl
  | some options =>
      rw [shrink, minify_bracketless options h.bracketless h.spaces]
      show Except.ok (if (respelled text).isEmpty then text else respelled text) = _
      cases small : respelled text with
      | nil =>
          rw [shrunk, small, respelled_eq_nil small]
          rfl
      | cons c rest => rw [List.isEmpty_cons, if_neg (by decide), shrunk, small]

theorem bracketless_shrunk (minifier : Option MinifyOptions) (h : IsPlain text) :
    Bracketless (shrunk minifier text) := by
  cases minifier with
  | none => exact h.bracketless
  | some _ => exact bracketless_respelled h.bracketless

/-- What is read in a plain text in its smaller form is the text, or shorter. -/
theorem reading_shrunk (minifier : Option MinifyOptions) (h : IsPlain text) :
    (Lossless text ∧ reading (shrunk minifier text) = text) ∨
      (¬Lossless text ∧ (reading (shrunk minifier text)).length < text.length) := by
  have again := reading_respelled text
  rcases reading_cases h.referenceless with ⟨kept, same⟩ | ⟨lost, less⟩
  · refine Or.inl ⟨kept, ?_⟩
    cases minifier with
    | none => exact same
    | some _ => exact (again.2 kept).trans same
  · refine Or.inr ⟨lost, ?_⟩
    cases minifier with
    | none => exact less
    | some _ => exact Nat.lt_of_le_of_lt again.1 less

/-- Where keys are left alone, plain text is cleaned, its content has a text, and that is the text
that was cleaned just when no character of it is lost. Then the text is kept as it was written. -/
theorem clean_plain {options : Options} (keysKept : options.keyMinifier = none) (key : List Char)
    (plain : IsPlain text) (escapeKey : Bool) :
    ∃ cleaned read, clean options key text escapeKey = .ok cleaned ∧
      textContent cleaned.content = .ok read ∧ (read = text ↔ Lossless text) ∧
      (Lossless text → keepPlain text cleaned.content = .ok text) := by
  have noKeys : keyMinifier options = none := by
    rw [keyMinifier, keysKept, ite_self]
  have small := shrink_plain options.contentMinifier plain
  have written := sanitizeMarkup_bracketless options.allowsLink
    (bracketless_shrunk options.contentMinifier plain)
  have told := reading_shrunk options.contentMinifier plain
  generalize reading (shrunk options.contentMinifier text) = read at *
  have has := textContent_escapeText (settled read)
  have iff : settled (settled read) = text ↔ Lossless text := by
    rcases told with ⟨kept, rfl⟩ | ⟨lost, less⟩
    · have own : settled read = read := settled_of_head fun c first => plain.spaces.head first
      simp [own, kept]
    · have short := length_settled read
      have shorter := length_settled (settled read)
      refine ⟨fun same => ?_, fun kept => absurd kept lost⟩
      rw [same] at shorter
      omega
  refine ⟨⟨if escapeKey then Script.escape key else key, escapeText (settled read)⟩,
    settled (settled read), ?_, has, iff, fun kept => ?_⟩
  · unfold clean
    rw [noKeys, small]
    show (do
      let content ← sanitizeMarkup options.allowsLink (shrunk options.contentMinifier text)
      return (⟨if escapeKey then Script.escape key else key, content⟩ : Cleaned)) = _
    rw [written]
    rfl
  · show (textContent (escapeText (settled read))).map _ = _
    rw [has]
    simp [Except.map, iff.mpr kept]

/-! ## An ampersand before a letter -/

/-- A text without white space is plain when no reference stands in it. -/
theorem isPlain_of_no_space {text : List Char} (bracket : '<' ∉ text)
    (spaces : ∀ c ∈ text, isMarkupSpace c = false)
    (references : Behind
      (fun after => after.head? ≠ some '#' ∧ namedReferenceOf? (nameRun after) = none) text) :
    IsPlain text where
  bracket := bracket
  spaces := by
    rintro before c after rfl space
    rw [spaces c (by simp)] at space
    cases space
  references := references

/-- A letter behind an ampersand is no reference, whatever follows it but more of a name. -/
theorem isPlain_letter {first letter : Char} {rest : List Char}
    (bracket : '<' ∉ first :: '&' :: letter :: rest)
    (spaces : ∀ c ∈ first :: '&' :: letter :: rest, isMarkupSpace c = false)
    (alone : '&' ∉ first :: letter :: rest) (run : nameRun (letter :: rest) = [letter])
    (ascii : letter.utf8Size = 1) (number : letter ≠ '#') :
    IsPlain (first :: '&' :: letter :: rest) := by
  rw [List.mem_cons, not_or] at alone
  refine isPlain_of_no_space bracket spaces (behind_cons.mpr ⟨fun same => ?_, behind_cons.mpr
    ⟨fun _ => ⟨by simpa using number, ?_⟩, behind_of_not_mem alone.2⟩⟩)
  · exact absurd same.symm alone.1
  · rw [run]
    exact namedReferenceOf?_short (by simpa using ascii) (Nat.le_refl 1)

/-- Before a letter at the end the ampersand is left out. -/
theorem clean_letterAtEnd :
    ¬∀ options key text, options.keyMinifier = none → IsPlain text →
      ∃ cleaned, clean options key text false = .ok cleaned ∧
        textContent cleaned.content = .ok text := by
  intro kept
  have plain : IsPlain ['Q', '&', 'A'] :=
    isPlain_letter (by decide) (by simp [isMarkupSpace]) (by decide) (by decide) (by decide) (by decide)
  obtain ⟨cleaned, done, has⟩ := kept pagesOnly ['k'] ['Q', '&', 'A'] rfl plain
  have left : clean pagesOnly ['k'] ['Q', '&', 'A'] false = .ok ⟨['k'], ['Q', 'A']⟩ := by
    decide +kernel
  rw [left] at done
  cases done
  have read : textContent ['Q', 'A'] = .ok ['Q', 'A'] := by decide +kernel
  rw [read] at has
  cases has

/-- Before a letter that something else follows it is kept. -/
theorem clean_letterInside :
    ∃ cleaned, clean pagesOnly ['k'] ['R', '&', 'D', '!'] false = .ok cleaned ∧
      textContent cleaned.content = .ok ['R', '&', 'D', '!'] ∧
      keepPlain ['R', '&', 'D', '!'] cleaned.content = .ok ['R', '&', 'D', '!'] := by
  have plain : IsPlain ['R', '&', 'D', '!'] :=
    isPlain_letter (by decide) (by simp [isMarkupSpace]) (by decide) (by decide) (by decide) (by decide)
  have kept : Lossless ['R', '&', 'D', '!'] := by
    have split : ['D', '!'] = nameRun ['D', '!'] ++ '!' :: [] := by decide
    have inside : ¬Loses ['D', '!'] := not_loses_followed (by decide) split (by decide)
    exact (lossless_cons (by decide)).mpr
      (lossless_ampersand.mpr ⟨inside, behind_of_not_mem (by decide)⟩)
  have keysKept : pagesOnly.keyMinifier = none := rfl
  obtain ⟨cleaned, read, done, has, iff, plainKept⟩ := clean_plain keysKept ['k'] plain false
  rw [iff.mpr kept] at has
  exact ⟨cleaned, done, has, plainKept kept⟩

end MessageCatalog.Content
