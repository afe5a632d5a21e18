import MessageCatalog.Pattern.Match

/-!
# MessageCatalog.Proofs.Pattern.Match -- what repetitions and searches find

The repetition of a set that prefers the longest run goes through the places behind the characters
of the run from the farthest back. The same function by recursion on the text needs no bound: from
it come what such a repetition can find and where it fails. A search passes over the places where
its pattern fails.
-/

namespace MessageCatalog.Pattern

variable {set : CharSet} {groups : List (Nat × List Char)} {k : Place → Option Place}

/-! ## Sets of one character -/

theorem contains_range_self (c d : Char) : (SetItem.range c c).contains false d = (d == c) := by
  have same : c ≤ d ∧ d ≤ c ↔ d = c := by
    constructor
    · exact fun both => Char.le_antisymm both.2 both.1
    · rintro rfl
      exact ⟨Char.le_refl d, Char.le_refl d⟩
  rw [Bool.eq_iff_iff]
  simpa [SetItem.contains] using same

theorem contains_single (c d : Char) : (CharSet.single c false).contains d = (d == c) := by
  simp [CharSet.contains, CharSet.single, contains_range_self]

/-! ## One set, as often as possible -/

/-- What `k` finds behind characters of a set, as many of them as can be. -/
def farthest (set : CharSet) (groups : List (Nat × List Char)) (k : Place → Option Place) :
    (before text : List Char) → Option Place
  | before, [] => k ⟨before, [], groups⟩
  | before, c :: rest =>
    if set.contains c then
      (farthest set groups k (c :: before) rest).or (k ⟨before, c :: rest, groups⟩)
    else k ⟨before, c :: rest, groups⟩

theorem run_one_cons (set : CharSet) (before : List Char) (c : Char) (rest : List Char) :
    (Pattern.one set).run ⟨before, c :: rest, groups⟩ k =
      if set.contains c then k ⟨c :: before, rest, groups⟩ else none := by
  by_cases member : set.contains c = true <;> simp [run, Place.step?, member]

/-- A bound beyond the length of the text is never reached, and since every repetition reads a
character none is refused. -/
theorem repeatBody_one {fuel : Nat} {since : Option Nat} {before text : List Char}
    (enough : text.length < fuel) (longer : ∀ n ∈ since, text.length < n) :
    repeatBody (Pattern.one set).run true fuel 0 none since ⟨before, text, groups⟩ k =
      farthest set groups k before text := by
  induction text generalizing fuel since before with
  | nil =>
      obtain ⟨fuel, rfl⟩ := Nat.exists_eq_add_one_of_ne_zero (Nat.ne_of_gt enough)
      simp [repeatBody, run, Place.step?, farthest]
  | cons c rest ih =>
      obtain ⟨fuel, rfl⟩ := Nat.exists_eq_add_one_of_ne_zero (Nat.ne_zero_of_lt enough)
      -- the round before left more characters than there are now, so going on is not refused
      have fresh : ¬((none : Option Nat) == some 0 || since == some (c :: rest).length) = true := by
        intro refused
        have same : since = some (c :: rest).length := by simpa using refused
        exact Nat.lt_irrefl _ (longer _ same)
      rw [repeatBody, if_neg (Nat.lt_irrefl 0), if_neg fresh, run_one_cons, farthest]
      split
      · rw [if_pos rfl, Option.map_none, ih (Nat.lt_of_succ_lt_succ enough) (by simp)]
      · rw [if_pos rfl, Option.none_or]

/-- At least one character of a set, and as many as can be. -/
theorem run_repeated_one (before : List Char) (c : Char) (rest : List Char) :
    (Pattern.repeated (.one set) 1 none .longest).run ⟨before, c :: rest, groups⟩ k =
      if set.contains c then farthest set groups k (c :: before) rest else none := by
  have enough : rest.length < 1 + (c :: rest).length + 1 := by simp; omega
  rw [run]
  dsimp only
  rw [repeatBody, if_pos Nat.one_pos, run_one_cons]
  split
  · exact repeatBody_one enough (by simp)
  · rfl

/-- What is found is found behind some characters of the set. -/
theorem exists_of_farthest {before text : List Char} {q : Place}
    (found : farthest set groups k before text = some q) :
    ∃ run rest, text = run ++ rest ∧ (∀ c ∈ run, set.contains c = true) ∧
      k ⟨run.reverse ++ before, rest, groups⟩ = some q := by
  induction text generalizing before with
  | nil => exact ⟨[], [], rfl, by simp, found⟩
  | cons c rest ih =>
      rw [farthest] at found
      split at found
      · next member =>
          -- this place counts only if nothing is found farther on
          cases further : farthest set groups k (c :: before) rest with
          | none =>
              rw [further, Option.none_or] at found
              exact ⟨[], c :: rest, rfl, by simp, found⟩
          | some p =>
              rw [further, Option.some_or] at found
              obtain ⟨run, rest, rfl, members, there⟩ := ih (further.trans found)
              exact ⟨c :: run, rest, rfl, by simpa [member] using members, by simpa using there⟩
      · exact ⟨[], c :: rest, rfl, by simp, found⟩

/-- Where the whole text belongs to the set, its end is tried first. -/
theorem farthest_of_end {before text : List Char} {q : Place}
    (members : ∀ c ∈ text, set.contains c = true)
    (there : k ⟨text.reverse ++ before, [], groups⟩ = some q) :
    farthest set groups k before text = some q := by
  induction text generalizing before with
  | nil => exact there
  | cons c rest ih =>
      have further : farthest set groups k (c :: before) rest = some q :=
        ih (fun d hd => members d (List.mem_cons_of_mem c hd)) (by simpa using there)
      rw [farthest, if_pos (members c List.mem_cons_self), further, Option.some_or]

/-- Nothing else is tried than the end of the run if `k` fails in front of the set. -/
theorem farthest_of_fails {before text : List Char}
    (fails : ∀ before c rest, set.contains c = true → k ⟨before, c :: rest, groups⟩ = none) :
    farthest set groups k before text =
      k ⟨(text.takeWhile set.contains).reverse ++ before, text.dropWhile set.contains,
        groups⟩ := by
  induction text generalizing before with
  | nil => rfl
  | cons c rest ih =>
      rw [farthest]
      split
      · next member => simp [ih, fails before c rest member, member]
      · next other => simp [other]

/-! ## Searching -/

variable {pattern : Pattern} {before front rest : List Char}

/-- A search goes on behind the places where the pattern does not match. -/
theorem searchFrom_append
    (fails : ∀ part, part ≠ [] → part <:+ front →
      ∀ before, pattern.run ⟨before, part ++ rest, []⟩ some = none) :
    pattern.searchFrom before (front ++ rest) =
      pattern.searchFrom (front.reverse ++ before) rest := by
  induction front generalizing before with
  | nil => rfl
  | cons c front ih =>
      have here : pattern.run ⟨before, c :: (front ++ rest), []⟩ some = none :=
        fails (c :: front) (List.cons_ne_nil c front) List.suffix_rfl before
      have later := fun part nonempty (suffix : part <:+ front) =>
        fails part nonempty (suffix.trans (List.suffix_cons c front))
      rw [List.cons_append, searchFrom, here]
      simpa using ih later

/-- A search ends at the first place where the pattern matches. -/
theorem searchFrom_of_run {q : Place} (found : pattern.run ⟨before, rest, []⟩ some = some q) :
    pattern.searchFrom before rest = some (q.since ⟨before, rest, []⟩) := by
  cases rest with
  | nil => rw [searchFrom, found, Option.map_some]
  | cons c rest => rw [searchFrom, found]

end MessageCatalog.Pattern
