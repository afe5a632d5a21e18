import Mathlib.Data.List.Basic
import MessageCatalog.Markup.Tokenizer

/-!
# MessageCatalog.Proofs.Markup.Slice -- a page as the slices that it is read in

The tokenizer takes a page apart from left to right. An event has the offset of its slice only; the
slices have the text of each event as well. They stand one behind the other and leave nothing out
up to the place where reading ends.
-/

namespace MessageCatalog.Markup

open MessageCatalog.Text

/-- A slice of a page as it is written, and the event that it is read as, if it is one. -/
structure Slice where
  text : List Char
  event : Option Event
  deriving DecidableEq

/-- The slices that one pass reads. -/
def passSlices (final : Bool) (mode : Mode) : List Char → List Slice
  | [] => []
  | c :: cs =>
    match readPiece final mode (c :: cs) with
    | .event size event mode' =>
      ⟨c :: cs.take size, event⟩ :: passSlices final mode' (cs.drop size)
    | .stop taken =>
      if taken.isEmpty then [] else [⟨(c :: cs).take taken.length, some (.data taken)⟩]
    | .drop => [⟨[c], none⟩]
    | .reject _ _ => []
termination_by text => text.length
decreasing_by
  simp only [List.length_drop, List.length_cons]
  omega

/-- The slices of a page. -/
def slicesOf (page : List Char) : List Slice :=
  let first := pass false .markup 0 page
  match first.rejection with
  | some _ => passSlices false .markup page
  | none =>
    let second := pass true first.mode first.offset first.rest
    passSlices false .markup page ++ passSlices true first.mode first.rest ++
      second.remainder.map fun located => ⟨second.rest, some located.event⟩

/-- The text of some slices. -/
def sliced (slices : List Slice) : List Char := slices.flatMap Slice.text

/-- The events of some slices, each with the offset of its slice. -/
def eventsAt : (offset : Nat) → List Slice → List Located
  | _, [] => []
  | offset, slice :: rest =>
    (slice.event.map fun event => ⟨offset, event⟩).toList ++
      eventsAt (offset + slice.text.length) rest

theorem sliced_cons (slice : Slice) (rest : List Slice) :
    sliced (slice :: rest) = slice.text ++ sliced rest := List.flatMap_cons

theorem sliced_append (slices others : List Slice) :
    sliced (slices ++ others) = sliced slices ++ sliced others := List.flatMap_append

theorem eventsAt_append (offset : Nat) (slices others : List Slice) :
    eventsAt offset (slices ++ others) =
      eventsAt offset slices ++ eventsAt (offset + (sliced slices).length) others := by
  induction slices generalizing offset with
  | nil => rfl
  | cons slice rest ih =>
      rw [List.cons_append, eventsAt, eventsAt, ih, sliced_cons, List.length_append,
        List.append_assoc, Nat.add_assoc]

/-! ## Offsets -/

theorem offset_eventsAt {offset : Nat} {slices : List Slice} (some : ∀ slice ∈ slices, slice.text ≠ [])
    {located : Located} (there : located ∈ eventsAt offset slices) :
    offset ≤ located.offset ∧ located.offset < offset + (sliced slices).length := by
  induction slices generalizing offset with
  | nil => cases there
  | cons slice rest ih =>
      rw [List.forall_mem_cons] at some
      have long := List.length_pos_iff.mpr some.1
      rw [sliced_cons, List.length_append]
      rcases List.mem_append.mp there with own | later
      · obtain ⟨event, -, rfl⟩ := Option.map_eq_some_iff.mp (Option.mem_toList.mp own)
        dsimp only
        omega
      · have bounds := ih some.2 later
        omega

theorem passSlices_text (final : Bool) (mode : Mode) (text : List Char) :
    ∀ slice ∈ passSlices final mode text, slice.text ≠ [] := by
  fun_induction passSlices final mode text with
  | case1 mode => exact nofun
  | case2 mode c cs size event mode' read ih =>
      exact List.forall_mem_cons.mpr ⟨List.cons_ne_nil _ _, ih⟩
  | case3 mode c cs taken read none => exact nofun
  | case4 mode c cs taken read more =>
      refine List.forall_mem_singleton.mpr ?_
      cases taken with
      | nil => exact absurd rfl more
      | cons first others => exact List.cons_ne_nil _ _
  | case5 mode c cs read => exact List.forall_mem_singleton.mpr (List.cons_ne_nil _ _)
  | case6 mode c cs distance why read => exact nofun

theorem slicesOf_text (page : List Char) : ∀ slice ∈ slicesOf page, slice.text ≠ [] := by
  have front := passSlices_text false .markup page
  unfold slicesOf
  dsimp only
  split
  · exact front
  · refine List.forall_mem_append.mpr ⟨List.forall_mem_append.mpr ⟨front, passSlices_text _ _ _⟩, ?_⟩
    intro slice there
    obtain ⟨located, left, rfl⟩ := List.mem_map.mp there
    unfold PassResult.remainder at left
    split at left
    · next rest _ =>
        dsimp only
        rw [rest]
        exact List.cons_ne_nil _ _
    · cases left

/-! ## The page -/

/-- What a pass leaves, said of its slices: they have its events, stand in front of what it leaves,
and reach up to the offset where it stops. -/
structure PassResult.Of (r : PassResult) (slices : List Slice) (offset : Nat) (text : List Char) :
    Prop where
  events : eventsAt offset slices = r.events
  text : sliced slices ++ r.rest = text
  offset : r.rest ≠ [] → r.offset = offset + (sliced slices).length

theorem pass_of (final : Bool) (mode : Mode) (offset : Nat) (text : List Char) :
    (pass final mode offset text).Of (passSlices final mode text) offset text := by
  fun_induction pass final mode offset text with
  | case1 mode offset =>
      rw [passSlices]
      exact ⟨rfl, rfl, fun _ => rfl⟩
  | case2 mode offset c cs size event mode' read ih =>
      rw [passSlices, read]
      dsimp only
      have rest : (pass final mode' (offset + size + 1) (cs.drop size)).push offset event =
          { pass final mode' (offset + size + 1) (cs.drop size) with
            events := (event.map fun event => ⟨offset, event⟩).toList ++
              (pass final mode' (offset + size + 1) (cs.drop size)).events } := by
        cases event <;> rfl
      rw [rest]
      by_cases short : size < cs.length
      · have long : offset + (c :: cs.take size).length = offset + size + 1 := by
          rw [List.length_cons, List.length_take, Nat.min_eq_left (Nat.le_of_lt short), Nat.add_assoc]
        refine ⟨?_, ?_, fun left => ?_⟩
        · rw [eventsAt, long, ih.events]
        · rw [sliced_cons, List.append_assoc, ih.text, List.cons_append, List.take_append_drop]
        · rw [sliced_cons, List.length_append, ← Nat.add_assoc, long]
          exact ih.offset left
      · -- nothing is left behind this slice
        have all : cs.drop size = [] := List.drop_eq_nil_of_le (Nat.le_of_not_lt short)
        have whole : cs.take size = cs := List.take_of_length_le (Nat.le_of_not_lt short)
        rw [all, whole, passSlices, pass]
        exact ⟨rfl, by simp [sliced], fun left => absurd rfl left⟩
  | case3 mode offset c cs taken read =>
      rw [passSlices, read]
      dsimp only
      split
      · next none =>
          rw [List.isEmpty_iff.mp none]
          exact ⟨rfl, rfl, fun _ => rfl⟩
      · refine ⟨rfl, ?_, fun left => ?_⟩
        · rw [sliced, List.flatMap_singleton, List.take_append_drop]
        · have more : taken.length ≤ (c :: cs).length := by
            by_contra less
            exact left (List.drop_eq_nil_of_le (by omega))
          rw [sliced, List.flatMap_singleton, List.length_take, Nat.min_eq_left more]
  | case4 mode offset c cs read =>
      rw [passSlices, read]
      exact ⟨rfl, rfl, fun _ => rfl⟩
  | case5 mode offset c cs distance why read =>
      rw [passSlices, read]
      exact ⟨rfl, rfl, fun _ => rfl⟩

/-- What two passes leave starts where the second one stopped. -/
theorem PassResult.remainder_cases (r : PassResult) :
    r.remainder = [] ∨ r.rest ≠ [] ∧ r.remainder = [⟨r.offset, .data r.rest⟩] := by
  unfold remainder
  split
  · next rest _ =>
      rw [rest]
      exact Or.inr ⟨List.cons_ne_nil _ _, rfl⟩
  · exact Or.inl rfl

/-- The slices of a page have its events at their offsets. -/
theorem eventsAt_slicesOf (page : List Char) : eventsAt 0 (slicesOf page) = (tokenize page).events := by
  have first := pass_of false .markup 0 page
  unfold slicesOf tokenize
  dsimp only
  generalize pass false .markup 0 page = r at first ⊢
  cases r.rejection with
  | some why => exact first.events
  | none =>
      dsimp only
      have second := pass_of true r.mode r.offset r.rest
      rw [eventsAt_append, eventsAt_append, first.events]
      by_cases left : r.rest = []
      · rw [left, passSlices, pass]
        cases r.mode <;> rfl
      rw [← first.offset left, second.events]
      congr 1
      rcases (pass true r.mode r.offset r.rest).remainder_cases with none | ⟨more, one⟩
      · rw [none]
        rfl
      · rw [one, sliced_append, List.length_append, ← Nat.add_assoc, ← first.offset left,
          ← second.offset more]
        rfl

/-- The slices of a page stand at its front, one behind the other. -/
theorem sliced_slicesOf (page : List Char) : sliced (slicesOf page) <+: page := by
  have first := pass_of false .markup 0 page
  unfold slicesOf
  dsimp only
  generalize pass false .markup 0 page = r at first ⊢
  split
  · exact ⟨r.rest, first.text⟩
  · have second := pass_of true r.mode r.offset r.rest
    have whole : sliced (passSlices false .markup page) ++
        (sliced (passSlices true r.mode r.rest) ++ (pass true r.mode r.offset r.rest).rest) =
          page := by
      rw [second.text, first.text]
    rw [sliced_append, sliced_append, List.append_assoc]
    rcases (pass true r.mode r.offset r.rest).remainder_cases with none | ⟨_, one⟩
    · rw [none]
      refine ⟨(pass true r.mode r.offset r.rest).rest, ?_⟩
      simpa [sliced] using whole
    · rw [one]
      refine ⟨[], ?_⟩
      simpa [sliced] using whole

end MessageCatalog.Markup
