import Mathlib.Data.List.Nodup
import Mathlib.Data.String.Basic
import MessageCatalog.Keyed
import MessageCatalog.Text.Search

/-!
# MessageCatalog.Proofs.Keyed -- what is under which name

The look-up is the meaning of values under names: a name is there when the look-up finds something,
and pairs with distinct names are found as they stand. Sorting names changes neither which they are
nor that they are distinct.
-/

namespace MessageCatalog.Keyed

open MessageCatalog.Text

variable {α β : Type}

/-! ## Pairs and the look-up -/

theorem lookup_eq_some_iff {pairs : List (String × α)} (h : (pairs.map Prod.fst).Nodup)
    {key : String} {value : α} : pairs.lookup key = some value ↔ (key, value) ∈ pairs := by
  induction pairs with
  | nil => simp
  | cons pair rest ih =>
      obtain ⟨name, first⟩ := pair
      rw [List.map_cons, List.nodup_cons] at h
      rw [lookup_cons_ite, List.mem_cons, Prod.mk.injEq]
      by_cases same : key = name
      · subst same
        have absent : (key, value) ∉ rest :=
          fun there => h.1 (List.mem_map.mpr ⟨_, there, rfl⟩)
        simp only [if_true, Option.some.injEq, true_and, absent, or_false]
        exact eq_comm
      · rw [if_neg same, ih h.2]
        simp [same]

theorem lookup_eq_none_iff {pairs : List (String × α)} {key : String} :
    pairs.lookup key = none ↔ key ∉ pairs.map Prod.fst := by
  induction pairs with
  | nil => simp
  | cons pair rest ih =>
      obtain ⟨name, first⟩ := pair
      rw [lookup_cons_ite, List.map_cons, List.mem_cons, not_or, ← ih]
      by_cases same : key = name <;> simp [same]

theorem get?_eq_some_iff (m : Keyed α) {key : String} {value : α} :
    m.get? key = some value ↔ (key, value) ∈ m.pairs :=
  lookup_eq_some_iff m.distinct

theorem get?_eq_none_iff (m : Keyed α) {key : String} : m.get? key = none ↔ key ∉ m.keys :=
  lookup_eq_none_iff

theorem mem_keys_iff (m : Keyed α) {key : String} :
    key ∈ m.keys ↔ ∃ value, m.get? key = some value := by
  rw [← Option.ne_none_iff_exists', Ne, get?_eq_none_iff, not_not]

@[simp] theorem contains_iff (m : Keyed α) {key : String} :
    m.contains key = true ↔ key ∈ m.keys := by
  simp [contains]

theorem nodup_keys (m : Keyed α) : m.keys.Nodup := m.distinct

theorem mem_keys_set {m : Keyed α} {key other : String} {value : α} :
    other ∈ (m.set key value).keys ↔ other = key ∨ other ∈ m.keys := by
  rw [keys_set]
  split
  · next there =>
    refine ⟨Or.inr, ?_⟩
    rintro (rfl | h)
    · exact there
    · exact h
  · rw [List.mem_append, List.mem_singleton, or_comm]

/-! ## A list of pairs -/

theorem setPair_of_not_mem {key : String} {value : α} {pairs : List (String × α)}
    (h : key ∉ pairs.map Prod.fst) : setPair key value pairs = pairs ++ [(key, value)] := by
  induction pairs with
  | nil => rfl
  | cons pair rest ih =>
      obtain ⟨name, first⟩ := pair
      rw [List.map_cons, List.mem_cons, not_or] at h
      have other : ¬name = key := fun e => h.1 e.symm
      rw [setPair, if_neg other, ih h.2]
      rfl

theorem setPair_of_lookup {key : String} {value : α} {pairs : List (String × α)}
    (h : pairs.lookup key = some value) : setPair key value pairs = pairs := by
  induction pairs with
  | nil => cases h
  | cons pair rest ih =>
      obtain ⟨name, first⟩ := pair
      rw [lookup_cons_ite] at h
      by_cases same : key = name
      · rw [if_pos same, Option.some.injEq] at h
        rw [setPair, if_pos same.symm, same, h]
      · rw [if_neg same] at h
        rw [setPair, if_neg (Ne.symm same), ih h]

/-- Setting a name to what is there changes nothing. -/
theorem set_of_get? {m : Keyed α} {key : String} {value : α} (h : m.get? key = some value) :
    m.set key value = m := by
  cases m
  simp only [set, mk.injEq]
  exact setPair_of_lookup h

/-- Pairs with new and distinct names stand behind what was there. -/
theorem pairs_foldl_set {rest : List (String × α)} {m : Keyed α}
    (h : ((m.pairs ++ rest).map Prod.fst).Nodup) :
    (rest.foldl (fun m pair => m.set pair.1 pair.2) m).pairs = m.pairs ++ rest := by
  induction rest generalizing m with
  | nil => simp
  | cons pair rest ih =>
      have absent : pair.1 ∉ m.pairs.map Prod.fst := by
        intro there
        rw [List.map_append, List.nodup_append] at h
        exact h.2.2 pair.1 there pair.1 (by simp) rfl
      have placed : (m.set pair.1 pair.2).pairs = m.pairs ++ [pair] := setPair_of_not_mem absent
      rw [List.foldl_cons, ih, placed, List.append_assoc]
      · rfl
      · rw [placed, List.append_assoc]
        exact h

/-- Pairs with distinct names are kept as they are. -/
theorem pairs_ofList {pairs : List (String × α)} (h : (pairs.map Prod.fst).Nodup) :
    (ofList pairs).pairs = pairs := by
  have all : ((empty.pairs ++ pairs).map Prod.fst).Nodup := h
  exact pairs_foldl_set all

theorem get?_ofList {pairs : List (String × α)} (h : (pairs.map Prod.fst).Nodup) (key : String) :
    (ofList pairs).get? key = pairs.lookup key := by
  rw [get?, pairs_ofList h]

theorem get?_foldl_set {rest : List (String × α)} {m : Keyed α} {key : String} {value : α}
    (h : (rest.foldl (fun m pair => m.set pair.1 pair.2) m).get? key = some value) :
    m.get? key = some value ∨ (key, value) ∈ rest := by
  induction rest generalizing m with
  | nil => exact Or.inl h
  | cons pair rest ih =>
      obtain ⟨name, other⟩ := pair
      rcases ih h with there | there
      · rw [get?_set] at there
        split at there
        · next same =>
            cases there
            subst same
            exact Or.inr List.mem_cons_self
        · exact Or.inl there
      · exact Or.inr (List.mem_cons_of_mem _ there)

/-- What is under a name of a list of pairs is one of the values that came with it. -/
theorem mem_of_get?_ofList {pairs : List (String × α)} {key : String} {value : α}
    (h : (ofList pairs).get? key = some value) : (key, value) ∈ pairs := by
  have all : (pairs.foldl (fun m pair => m.set pair.1 pair.2) empty).get? key = some value := h
  rcases get?_foldl_set all with there | there
  · cases there
  · exact there

theorem mem_keys_foldl_set {rest : List (String × α)} {m : Keyed α} {key : String} :
    key ∈ (rest.foldl (fun m pair => m.set pair.1 pair.2) m).keys ↔
      key ∈ m.keys ∨ key ∈ rest.map Prod.fst := by
  induction rest generalizing m with
  | nil => simp
  | cons pair rest ih =>
      rw [List.foldl_cons, ih, mem_keys_set, List.map_cons, List.mem_cons, or_assoc, or_left_comm]

/-- The names are those of the pairs. -/
theorem mem_keys_ofList {pairs : List (String × α)} {key : String} :
    key ∈ (ofList pairs).keys ↔ key ∈ pairs.map Prod.fst := by
  show key ∈ (pairs.foldl (fun m pair => m.set pair.1 pair.2) empty).keys ↔ _
  rw [mem_keys_foldl_set]
  simp [empty, keys]

/-! ## One name of many -/

/-- One name with what is under it. -/
def only (m : Keyed α) (key : String) : Keyed α :=
  ⟨m.pairs.filter fun pair => pair.1 == key,
    m.distinct.sublist ((List.filter_sublist).map Prod.fst)⟩

theorem keys_only {m : Keyed α} {key : String} (there : key ∈ m.keys) : (m.only key).keys = [key] := by
  have own : (m.only key).keys = m.keys.filter fun name => name == key := by
    simp only [keys, only, List.filter_map]
    rfl
  have once : m.keys.count key = 1 := List.count_eq_one_of_mem m.nodup_keys there
  rw [own, List.filter_beq, once, List.replicate_one]

theorem lookup_filter (keep : String → Bool) {key : String} (kept : keep key = true)
    (pairs : List (String × α)) :
    (pairs.filter fun pair => keep pair.1).lookup key = pairs.lookup key := by
  induction pairs with
  | nil => rfl
  | cons pair rest ih =>
      obtain ⟨name, value⟩ := pair
      rw [lookup_cons_ite]
      by_cases same : key = name
      · subst same
        rw [List.filter_cons_of_pos (by simpa using kept), lookup_cons_ite, if_pos rfl, if_pos rfl]
      · rw [if_neg same, ← ih, List.filter_cons]
        split
        · rw [lookup_cons_ite, if_neg same]
        · rfl

theorem get?_only (m : Keyed α) (key : String) : (m.only key).get? key = m.get? key :=
  lookup_filter (fun name => name == key) (beq_self_eq_true key) m.pairs

theorem get?_erase_of_ne (m : Keyed α) {key other : String} (apart : other ≠ key) :
    (m.erase key).get? other = m.get? other :=
  lookup_filter (fun name => name != key) (by simpa using apart) m.pairs

/-! ## Names in order -/

theorem ascending_perm (texts : List String) : (ascending texts).Perm texts :=
  List.mergeSort_perm ..

@[simp] theorem mem_ascending {texts : List String} {text : String} :
    text ∈ ascending texts ↔ text ∈ texts :=
  (ascending_perm texts).mem_iff

theorem nodup_ascending {texts : List String} : (ascending texts).Nodup ↔ texts.Nodup :=
  (ascending_perm texts).nodup_iff

theorem pairwise_ascending (texts : List String) : (ascending texts).Pairwise (· ≤ ·) := by
  have transitive : ∀ a b c : String, decide (a ≤ b) = true → decide (b ≤ c) = true →
      decide (a ≤ c) = true := by
    intro a b c hab hbc
    rw [decide_eq_true_eq] at hab hbc ⊢
    exact le_trans hab hbc
  have total : ∀ a b : String, (decide (a ≤ b) || decide (b ≤ a)) = true := by
    intro a b
    rw [Bool.or_eq_true, decide_eq_true_eq, decide_eq_true_eq]
    exact le_total a b
  exact (List.pairwise_mergeSort transitive total texts).imp (by simp)

theorem ascending_of_pairwise {texts : List String} (h : texts.Pairwise (· ≤ ·)) :
    ascending texts = texts :=
  List.mergeSort_of_pairwise (h.imp (by simp))

/-- Texts can be put in order in one way only. -/
theorem eq_of_pairwise_le {one two : List String} (same : one.Perm two)
    (first : one.Pairwise (· ≤ ·)) (second : two.Pairwise (· ≤ ·)) : one = two :=
  same.eq_of_pairwise (fun _ _ _ _ => le_antisymm) first second

/-- Names in order stay in order when some are left out. -/
theorem ascending_filter (keep : String → Bool) (texts : List String) :
    ascending (texts.filter keep) = (ascending texts).filter keep := by
  refine eq_of_pairwise_le ?_ (pairwise_ascending _) ((pairwise_ascending texts).filter _)
  exact (ascending_perm _).trans ((ascending_perm texts).filter keep).symm

/-- Texts in order stay in order when the same text is put in front of all. -/
theorem ascending_map_append (front : String) (texts : List String) :
    ascending (texts.map (front ++ ·)) = (ascending texts).map (front ++ ·) := by
  have mono : ∀ a b : String, a ≤ b → front ++ a ≤ front ++ b := by
    intro a b upTo
    rcases upTo.eq_or_lt with rfl | less
    · exact le_rfl
    · refine le_of_lt (String.lt_iff_toList_lt.mpr ?_)
      rw [String.toList_append, String.toList_append]
      exact List.append_left_lt (String.lt_iff_toList_lt.mp less)
  refine eq_of_pairwise_le ?_ (pairwise_ascending _) ((pairwise_ascending texts).map _ mono)
  exact (ascending_perm _).trans ((ascending_perm texts).map _).symm

end MessageCatalog.Keyed

namespace MessageCatalog.Text

variable {α : Type} [BEq α] [LawfulBEq α]

/-! ## Lists without repetition -/

@[simp] theorem mem_addNew {xs : List α} {x y : α} : y ∈ addNew xs x ↔ y ∈ xs ∨ y = x := by
  rw [addNew]
  split
  · next h =>
    have there : x ∈ xs := List.contains_iff_mem.mp h
    refine ⟨Or.inl, ?_⟩
    rintro (hy | rfl)
    · exact hy
    · exact there
  · simp

theorem nodup_addNew {xs : List α} (h : xs.Nodup) (x : α) : (addNew xs x).Nodup := by
  rw [addNew]
  split
  · exact h
  · next absent =>
    rw [List.contains_iff_mem] at absent
    exact List.nodup_append.mpr ⟨h, List.nodup_singleton x, fun a ha b hb => by
      rw [List.mem_singleton.mp hb]
      exact fun e => absent (e ▸ ha)⟩

theorem mem_foldl_addNew {ys xs : List α} {y : α} :
    y ∈ ys.foldl addNew xs ↔ y ∈ xs ∨ y ∈ ys := by
  induction ys generalizing xs with
  | nil => simp
  | cons first rest ih => rw [List.foldl_cons, ih, mem_addNew, List.mem_cons, or_assoc]

theorem nodup_foldl_addNew {ys xs : List α} (h : xs.Nodup) : (ys.foldl addNew xs).Nodup := by
  induction ys generalizing xs with
  | nil => exact h
  | cons first rest ih => exact ih (nodup_addNew h first)

@[simp] theorem mem_distinct {xs : List α} {x : α} : x ∈ distinct xs ↔ x ∈ xs := by
  rw [distinct, mem_foldl_addNew]
  simp

theorem nodup_distinct (xs : List α) : (distinct xs).Nodup := nodup_foldl_addNew List.nodup_nil

theorem distinct_map {β : Type} [BEq β] [LawfulBEq β] {f : α → β} (apart : Function.Injective f)
    (xs : List α) : distinct (xs.map f) = (distinct xs).map f := by
  have step : ∀ ys zs : List α, (ys.map f).foldl addNew (zs.map f) = (ys.foldl addNew zs).map f := by
    intro ys
    induction ys with
    | nil => exact fun _ => rfl
    | cons y ys ih =>
        intro zs
        have one : addNew (zs.map f) (f y) = (addNew zs y).map f := by
          unfold addNew
          simp only [List.contains_iff_mem, List.mem_map_of_injective apart]
          split
          · rfl
          · rw [List.map_append, List.map_singleton]
        rw [List.map_cons, List.foldl_cons, List.foldl_cons, one, ih]
  exact step xs []

/-- Elements that repeat add nothing. -/
theorem foldl_addNew_distinct (ys xs : List α) : (distinct ys).foldl addNew xs = ys.foldl addNew xs := by
  have step : ∀ ys zs : List α, (ys.foldl addNew zs).foldl addNew xs =
      ys.foldl addNew (zs.foldl addNew xs) := by
    intro ys
    induction ys with
    | nil => exact fun _ => rfl
    | cons y ys ih =>
        intro zs
        rw [List.foldl_cons, List.foldl_cons, ih]
        congr 1
        rw [addNew]
        split
        · next known =>
          -- what was there before is there now
          have there : y ∈ zs.foldl addNew xs :=
            mem_foldl_addNew.mpr (Or.inr (List.contains_iff_mem.mp known))
          rw [addNew, if_pos (List.contains_iff_mem.mpr there)]
        · rw [List.foldl_append]
          rfl
  exact step ys []

end MessageCatalog.Text
