import MessageCatalog.Occurrence.Source
import MessageCatalog.Proofs.Store.Merge

/-!
# MessageCatalog.Proofs.Occurrence.Source -- what scanning a source gives

A source is scanned when its path says what it is and its text can be read as that. Its occurrences
name the source and say nothing further. A source that is not scanned leaves a store as it was.
-/

namespace MessageCatalog.Occurrence

open MessageCatalog.Config MessageCatalog.Markup MessageCatalog.Script MessageCatalog.Store

/-! ## Occurrences say nothing further -/

namespace Findings

/-- No occurrence has a further field. -/
def Bare (found : Findings) : Prop := ∀ item ∈ found.entries, item.2.extra = []

theorem bare_none : Bare .none := by
  intro item there
  cases there

theorem bare_say (line : Report.Line) : Bare (.say line) := by
  intro item there
  cases there

theorem bare_one (path : String) (key text : List Char) : Bare (.one path key text) := by
  intro item there
  rw [List.mem_singleton.mp there]

theorem Bare.append {a b : Findings} (ha : a.Bare) (hb : b.Bare) : Bare (a ++ b) := by
  intro item there
  rcases List.mem_append.mp there with there | there
  · exact ha item there
  · exact hb item there

theorem bare_concat {all : List Findings} (h : ∀ found ∈ all, found.Bare) : Bare (concat all) := by
  induction all with
  | nil => exact bare_none
  | cons found rest ih =>
      exact (h found List.mem_cons_self).append
        (ih fun other there => h other (List.mem_cons_of_mem _ there))

end Findings

theorem bare_argument (path : String) (argument closing : Token) :
    (argumentFindings path argument closing).Bare := by
  unfold argumentFindings
  split
  · split
    · exact Findings.bare_one _ _ _
    · exact Findings.bare_say _
  · exact Findings.bare_say _

theorem bare_ofTokens (functions : List String) (path : String) (tokens : Tokens) :
    (ofTokens functions path tokens).Bare := by
  fun_induction ofTokens functions path tokens with
  | case1 name parenthesis argument closing rest here ih =>
      -- a call adds what its argument gives to what is found behind it
      refine Findings.Bare.append ?_ ih
      unfold here
      split
      · exact bare_argument _ _ _
      · exact Findings.bare_none
  | case2 => exact Findings.bare_none

theorem bare_content (options : Options) (path : String) (page : List Char) (element : Element) :
    (contentFindings options path page element).Bare := by
  unfold contentFindings
  dsimp only
  split
  · split
    · exact Findings.bare_none
    · exact Findings.bare_one _ _ _
  · exact Findings.bare_say _

theorem bare_attribute (options : Options) (path : String) (page : List Char) (element : Element)
    (mark : String) : (attributeFindings options path page element mark).Bare := by
  unfold attributeFindings
  dsimp only
  split
  · exact Findings.bare_one _ _ _
  split
  · exact bare_content _ _ _ _
  · exact Findings.bare_none

theorem bare_ofPage {options : Options} {path : String} {page : List Char} {found : Findings}
    (h : ofPage options path page = .ok found) : found.Bare := by
  unfold ofPage at h
  cases parsed : parse page with
  | error e =>
      rw [parsed] at h
      cases h
  | ok nodes =>
      rw [parsed] at h
      cases h
      refine (Findings.bare_say _).append (Findings.bare_concat ?_)
      intro found there
      obtain ⟨element, _, there⟩ := List.mem_flatMap.mp there
      obtain ⟨mark, _, rfl⟩ := List.mem_map.mp there
      exact bare_attribute _ _ _ _ _

theorem bare_ofScript {options : Options} {path : String} {script : List Char}
    {found : Findings} (h : ofScript options path script = .ok found) : found.Bare := by
  unfold ofScript at h
  cases scanned : Script.tokenize script with
  | error fault =>
      rw [scanned] at h
      cases h
  | ok tokens =>
      rw [scanned] at h
      cases h
      exact bare_ofTokens _ _ _

/-- Whatever a source is, its occurrences have no further field. -/
theorem bare_ofKind {options : Options} {kind : SourceKind} {path : String} {text : List Char}
    {found : Findings} (h : ofKind options kind path text = .ok found) : found.Bare := by
  cases kind with
  | page =>
      rw [ofKind] at h
      split at h
      · next page read =>
          cases h
          exact bare_ofPage read
      · cases h
  | script =>
      rw [ofKind] at h
      split at h
      · next script read =>
          cases h
          exact bare_ofScript read
      · cases h

/-! ## Whether a source is scanned -/

/-- A text is a source of the kind that its path says, and its messages can be found. -/
def Found (options : Options) (path : String) (text : List Char) (found : Findings) : Prop :=
  ∃ kind, kindOf? options path = some kind ∧ ofKind options kind path text = .ok found

/-- A source is scanned, its messages merged, when they are found; otherwise nothing happens. -/
theorem scan_cases (options : Options) (store : Store) (path : String) (text : List Char) :
    (∃ found, Found options path text found ∧ (scan options store path text).scanned = true ∧
      (scan options store path text).store = extendAll store found.entries false) ∨
    ((¬∃ found, Found options path text found) ∧ (scan options store path text).scanned = false ∧
      (scan options store path text).store = store) := by
  unfold scan
  split
  · next unknown =>
    refine Or.inr ⟨?_, rfl, rfl⟩
    rintro ⟨found, kind, known, -⟩
    rw [unknown] at known
    cases known
  · next kind known =>
    split
    · next failed =>
      refine Or.inr ⟨?_, rfl, rfl⟩
      rintro ⟨found, kind', known', read⟩
      rw [known] at known'
      cases known'
      rw [failed] at read
      cases read
    · next found read => exact Or.inl ⟨found, ⟨kind, known, read⟩, rfl, rfl⟩

end MessageCatalog.Occurrence
