import Mathlib.Data.List.TakeWhile
import MessageCatalog.Text.Search

/-!
# MessageCatalog.Proofs.Text.Run -- the longest run of a class of characters

Scanners take characters while they belong to a class. The relation says the same without a scanner:
a text is a run of characters of the class and a rest that does not go on with one.
-/

namespace MessageCatalog.Text

/-- A text starts with a run of characters of a class, and no character of the class follows. -/
def LongestRun (inClass : Char → Bool) (text run rest : List Char) : Prop :=
  text = run ++ rest ∧ (∀ c ∈ run, inClass c = true) ∧ ∀ c ∈ rest.head?, inClass c = false

variable {inClass : Char → Bool} {text run rest : List Char}

theorem longestRun_takeWhile (inClass : Char → Bool) (text : List Char) :
    LongestRun inClass text (text.takeWhile inClass) (text.dropWhile inClass) := by
  refine ⟨(List.takeWhile_append_dropWhile).symm, fun c hc => List.mem_takeWhile_imp hc, ?_⟩
  intro c hc
  have stop := List.head?_dropWhile_not inClass text
  rw [Option.mem_def.mp hc] at stop
  simpa using stop

theorem dropWhile_eq_of_head? (h : ∀ c ∈ text.head?, inClass c = false) :
    text.takeWhile inClass = [] ∧ text.dropWhile inClass = text := by
  cases text with
  | nil => simp
  | cons c cs =>
      have hc : inClass c = false := h c (by simp)
      simp [hc]

/-- There is one such run, the one that a scanner takes. -/
theorem longestRun_iff :
    LongestRun inClass text run rest ↔
      text.takeWhile inClass = run ∧ text.dropWhile inClass = rest := by
  constructor
  · rintro ⟨rfl, inside, stop⟩
    obtain ⟨taken, dropped⟩ := dropWhile_eq_of_head? stop
    rw [List.takeWhile_append_of_pos inside, List.dropWhile_append_of_pos inside, taken, dropped]
    simp
  · rintro ⟨rfl, rfl⟩
    exact longestRun_takeWhile inClass text

/-! ## Trimming -/

theorem trimEnd_append {core after : List Char} (blank : ∀ c ∈ after, inClass c = true)
    (ends : ∀ c ∈ core.getLast?, inClass c = false) : trimEnd inClass (core ++ after) = core := by
  have inside : ∀ c ∈ after.reverse, inClass c = true := by simpa using blank
  have stop : ∀ c ∈ core.reverse.head?, inClass c = false := by simpa using ends
  rw [trimEnd, List.reverse_append, List.dropWhile_append_of_pos inside,
    (dropWhile_eq_of_head? stop).2, List.reverse_reverse]

theorem trimEnd_split (inClass : Char → Bool) (text : List Char) :
    ∃ after, text = trimEnd inClass text ++ after ∧ (∀ c ∈ after, inClass c = true) ∧
      ∀ c ∈ (trimEnd inClass text).getLast?, inClass c = false := by
  obtain ⟨split, blank, ends⟩ := longestRun_takeWhile inClass text.reverse
  refine ⟨(text.reverse.takeWhile inClass).reverse, ?_, by simpa using blank, fun c last => ?_⟩
  · rw [trimEnd, ← List.reverse_append, ← split, List.reverse_reverse]
  · rw [trimEnd, List.getLast?_reverse] at last
    exact ends c last

/-- Trimming finds the core between two runs of a class. -/
theorem trim_append {before core after : List Char} (some : core ≠ [])
    (blankBefore : ∀ c ∈ before, inClass c = true) (blankAfter : ∀ c ∈ after, inClass c = true)
    (starts : ∀ c ∈ core.head?, inClass c = false)
    (ends : ∀ c ∈ core.getLast?, inClass c = false) :
    trim inClass (before ++ core ++ after) = core := by
  have stop : ∀ c ∈ (core ++ after).head?, inClass c = false := by
    rwa [List.head?_append, Option.or_of_isSome (List.isSome_head?.mpr some)]
  rw [trim, List.append_assoc, List.dropWhile_append_of_pos blankBefore,
    (dropWhile_eq_of_head? stop).2, trimEnd_append blankAfter ends]

theorem trim_eq_nil_iff : trim inClass text = [] ↔ ∀ c ∈ text, inClass c = true := by
  constructor
  · intro h
    have rest : ∀ c ∈ text.dropWhile inClass, inClass c = true := by
      rw [trim, trimEnd, List.reverse_eq_nil_iff, List.dropWhile_eq_nil_iff] at h
      simpa using h
    intro c hc
    rw [← List.takeWhile_append_dropWhile (p := inClass) (l := text), List.mem_append] at hc
    rcases hc with hc | hc
    · exact List.mem_takeWhile_imp hc
    · exact rest c hc
  · intro h
    rw [trim, List.dropWhile_eq_nil_iff.mpr h]
    rfl

/-- What trimming takes away at either end belongs to the class, and the core ends in nothing of
it. -/
theorem trim_split (inClass : Char → Bool) (text : List Char) :
    ∃ before after, text = before ++ trim inClass text ++ after ∧
      (∀ c ∈ before, inClass c = true) ∧ (∀ c ∈ after, inClass c = true) ∧
      (∀ c ∈ (trim inClass text).head?, inClass c = false) ∧
      (∀ c ∈ (trim inClass text).getLast?, inClass c = false) := by
  obtain ⟨split, blankBefore, starts⟩ := longestRun_takeWhile inClass text
  obtain ⟨split', blankAfter, ends⟩ :=
    longestRun_takeWhile inClass (text.dropWhile inClass).reverse
  have core : text.dropWhile inClass = trim inClass text ++
      ((text.dropWhile inClass).reverse.takeWhile inClass).reverse := by
    rw [trim, trimEnd, ← List.reverse_append, ← split', List.reverse_reverse]
  refine ⟨text.takeWhile inClass,
    ((text.dropWhile inClass).reverse.takeWhile inClass).reverse, ?_, blankBefore, ?_, ?_, ?_⟩
  · rw [List.append_assoc, ← core]
    exact split
  · simpa using blankAfter
  · intro c hc
    refine starts c ?_
    rw [core, Option.mem_def, List.head?_append, Option.mem_def.mp hc]
    rfl
  · intro c hc
    refine ends c ?_
    rw [trim, trimEnd, List.getLast?_reverse] at hc
    exact hc

end MessageCatalog.Text
