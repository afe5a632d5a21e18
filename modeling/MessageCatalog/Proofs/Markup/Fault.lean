import MessageCatalog.Proofs.Markup.Nesting
import MessageCatalog.Proofs.Markup.Slice

/-!
# MessageCatalog.Proofs.Markup.Fault -- where a fragment is wrong

An event that does not fit, an element that is left open and a construct that cannot be read all
stand at some character of the fragment, and the error has the position of that character.
-/

namespace MessageCatalog.Markup

open MessageCatalog.Text

/-! ## Constructs -/

/-- A construct that rejects the page does so at one of its own characters. -/
def Outcome.RejectsIn (text : List Char) : Outcome → Prop
  | .reject distance _ => distance < text.length
  | _ => True

theorem unfinished_rejectsIn (final : Bool) (text : List Char) :
    (unfinished final text).RejectsIn text := by
  unfold unfinished
  split
  · dsimp only
    split
    · trivial
    · split <;> trivial
  · trivial

/-- Only a marked section is ever rejected: at its start, or at what stands where its name should. -/
theorem readSection_rejectsIn (final : Bool) (text : List Char) :
    (readSection final text).RejectsIn text := by
  unfold readSection
  dsimp only
  split
  · exact unfinished_rejectsIn _ _
  next c cs inside =>
    have long : 3 < text.length := by
      have size := congrArg List.length inside
      rw [List.length_drop, List.length_cons] at size
      omega
    split
    · split
      · exact unfinished_rejectsIn _ _
      split
      · exact Nat.zero_lt_of_lt long
      · split
        · exact unfinished_rejectsIn _ _
        · trivial
    · exact long

theorem readDeclaration_rejectsIn (final : Bool) (text : List Char) :
    (readDeclaration final text).RejectsIn text := by
  unfold readDeclaration
  dsimp only
  split
  · exact readSection_rejectsIn _ _
  split
  · split
    · exact unfinished_rejectsIn _ _
    · trivial
  · split
    · exact unfinished_rejectsIn _ _
    · trivial

theorem readClosing_rejectsIn (final : Bool) (text : List Char) :
    (readClosing final text).RejectsIn text := by
  unfold readClosing
  dsimp only
  split
  · exact unfinished_rejectsIn _ _
  split
  · trivial
  split
  · exact unfinished_rejectsIn _ _
  split
  · trivial
  split <;> trivial

theorem readOpening_rejectsIn (final : Bool) (text : List Char) :
    (readOpening final text).RejectsIn text := by
  unfold readOpening
  split
  · trivial
  · exact unfinished_rejectsIn _ _
  · trivial

theorem readBracket_rejectsIn (final : Bool) (text : List Char) :
    (readBracket final text).RejectsIn text := by
  unfold readBracket
  split
  · trivial
  split
  · exact readOpening_rejectsIn _ _
  split
  · exact readClosing_rejectsIn _ _
  split
  · split
    · exact unfinished_rejectsIn _ _
    · trivial
  split
  · split
    · exact unfinished_rejectsIn _ _
    · trivial
  split
  · exact readDeclaration_rejectsIn _ _
  · trivial

theorem readAmpersand_rejectsIn (final : Bool) (text : List Char) :
    (readAmpersand final text).RejectsIn text := by
  unfold readAmpersand
  split
  · trivial
  · split
    · trivial
    · split <;> trivial
  · split
    · trivial
    split
    · split <;> trivial
    · trivial

theorem readPiece_rejectsIn (final : Bool) (mode : Mode) (text : List Char) :
    (readPiece final mode text).RejectsIn text := by
  unfold readPiece
  split
  · split
    · exact readBracket_rejectsIn _ _
    · exact readAmpersand_rejectsIn _ _
    · trivial
  · split
    · trivial
    · unfold readRawClosing
      split
      · split <;> trivial
      · trivial
    · trivial

/-! ## Pages -/

theorem pass_rejection {final : Bool} {mode : Mode} {offset place : Nat} {text : List Char}
    {why : Rejection} (h : (pass final mode offset text).rejection = some (place, why)) :
    ∃ distance < (pass final mode offset text).rest.length,
      place = (pass final mode offset text).offset + distance := by
  fun_induction pass final mode offset text with
  | case1 mode offset => cases h
  | case2 mode offset c cs size event mode' read ih =>
      -- an event in front changes nothing of where the pass ends
      cases event <;> exact ih h
  | case3 mode offset c cs taken read => cases h
  | case4 mode offset c cs read => cases h
  | case5 mode offset c cs distance why' read =>
      have own := readPiece_rejectsIn final mode (c :: cs)
      rw [read] at own
      cases h
      exact ⟨distance, own, rfl⟩

theorem PassResult.Of.place_lt {r : PassResult} {slices : List Slice} {offset distance : Nat}
    {text : List Char} (h : r.Of slices offset text) (inside : distance < r.rest.length) :
    r.offset + distance < offset + text.length := by
  rw [← h.text, List.length_append, h.offset (List.ne_nil_of_length_pos (Nat.zero_lt_of_lt inside))]
  omega

/-- A page is rejected at one of its characters. -/
theorem tokenize_rejection {page : List Char} {place : Nat} {why : Rejection}
    (h : (tokenize page).rejection = some (place, why)) : place < page.length := by
  have first := pass_of false .markup 0 page
  unfold tokenize at h
  dsimp only at h
  split at h
  · next early =>
      cases h
      obtain ⟨distance, inside, rfl⟩ := pass_rejection early
      simpa using first.place_lt inside
  · obtain ⟨distance, inside, rfl⟩ := pass_rejection h
    have second := pass_of true (pass false .markup 0 page).mode (pass false .markup 0 page).offset
      (pass false .markup 0 page).rest
    have bound := second.place_lt inside
    -- the second pass starts where the first one stopped
    have left : (pass false .markup 0 page).rest ≠ [] := by
      intro none
      rw [none, pass] at inside
      exact absurd inside (Nat.not_lt_zero _)
    have reached := first.offset left
    have whole := congrArg List.length first.text
    rw [List.length_append] at whole
    omega

/-- Every event of a page starts at one of its characters. -/
theorem tokenize_offset {page : List Char} {located : Located}
    (there : located ∈ (tokenize page).events) : located.offset < page.length := by
  rw [← eventsAt_slicesOf] at there
  have bound := (offset_eventsAt (slicesOf_text page) there).2
  rw [Nat.zero_add] at bound
  exact Nat.lt_of_lt_of_le bound (sliced_slicesOf page).length_le

/-! ## Nesting -/

theorem closeTo_suffix {name : String} {open' inner : List OpenElement}
    (h : closeTo name open' = .ok inner) : inner <:+ open' := by
  induction open' with
  | nil => cases h
  | cons innermost outer ih =>
      rw [closeTo] at h
      split at h
      · cases h
        exact List.suffix_cons _ _
      split at h
      · exact (ih h).trans (List.suffix_cons _ _)
      · cases h

/-- An event opens an element where it stands, or none. -/
theorem nest_offset {open' inner : List OpenElement} {located : Located}
    (h : nest open' located = .ok inner) {e : OpenElement} (there : e ∈ inner) :
    e ∈ open' ∨ e.offset = located.offset := by
  rw [nest_eq_mark] at h
  split at h
  · cases h
    exact .inl there
  · cases h
    rcases List.mem_cons.mp there with rfl | outer
    · exact .inr rfl
    · exact .inl outer
  · exact .inl ((closeTo_suffix (closeElement_eq_ok.mp h)).subset there)

/-- An element that is left open was open before, or an event opened it. -/
theorem nestAll_offset {open' left : List OpenElement} {events : List Located}
    (h : nestAll open' events = .ok left) {e : OpenElement} (there : e ∈ left) :
    e ∈ open' ∨ ∃ located ∈ events, e.offset = located.offset := by
  induction events generalizing open' with
  | nil =>
      cases h
      exact .inl there
  | cons located rest ih =>
      rw [nestAll] at h
      split at h
      · next inner fits =>
          rcases ih h with before | ⟨later, behind, same⟩
          · rcases nest_offset fits before with outer | own
            · exact .inl outer
            · exact .inr ⟨located, List.mem_cons_self, own⟩
          · exact .inr ⟨later, List.mem_cons_of_mem _ behind, same⟩
      · cases h

/-- An event that does not fit is one of the events. -/
theorem nestAll_fault {open' : List OpenElement} {events : List Located} {place : Nat}
    {cause : MarkupCause} (h : nestAll open' events = .error (place, cause)) :
    ∃ located ∈ events, place = located.offset := by
  induction events generalizing open' with
  | nil => cases h
  | cons located rest ih =>
      rw [nestAll] at h
      split at h
      · obtain ⟨later, behind, same⟩ := ih h
        exact ⟨later, List.mem_cons_of_mem _ behind, same⟩
      · cases h
        exact ⟨located, List.mem_cons_self, rfl⟩

/-! ## Fragments -/

theorem checkPage_fault {markup : List Char} {place : Nat} {cause : MarkupCause}
    (h : checkPage (tokenize markup) = .error (place, cause)) : place < markup.length := by
  rw [checkPage] at h
  split at h
  · next misfit =>
      cases h
      obtain ⟨located, there, rfl⟩ := nestAll_fault misfit
      exact tokenize_offset there
  · next left nested =>
      split at h
      · next rejected =>
          cases h
          exact tokenize_rejection rejected
      · split at h
        · next e unclosed =>
            cases h
            have there : e ∈ left := List.mem_reverse.mp (List.mem_of_find?_eq_some unclosed)
            rcases nestAll_offset nested there with none | ⟨located, event, same⟩
            · cases none
            · exact same ▸ tokenize_offset event
        · cases h

/-- A fragment is wrong at one of its characters. -/
theorem minify_fault {options : MinifyOptions} {markup : List Char} {e : MarkupError}
    (h : minify options markup = .error e) :
    ∃ place < markup.length, e.position = some (Position.at markup place) := by
  rw [minify] at h
  split at h
  · next place cause faulty =>
      cases h
      exact ⟨place, checkPage_fault faulty, rfl⟩
  · cases h

end MessageCatalog.Markup
