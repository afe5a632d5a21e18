/-!
# MessageCatalog.Keyed -- values under names, in the order in which the names came

A name occurs once. Setting a name that is there replaces its value in place; a new name goes to the
end. Every operation says what it does to the names and to the look-up, so that nothing else has to
look at the list of pairs.
-/

namespace MessageCatalog

/-- Values under distinct names, in order. -/
structure Keyed (α : Type) where
  pairs : List (String × α)
  distinct : (pairs.map Prod.fst).Nodup

namespace Keyed

variable {α β : Type}

instance [Repr α] : Repr (Keyed α) := ⟨fun m depth => reprPrec m.pairs depth⟩

/-- Nothing under any name. -/
def empty : Keyed α := ⟨[], List.nodup_nil⟩

instance : Inhabited (Keyed α) := ⟨empty⟩

/-- The names, in order. -/
def keys (m : Keyed α) : List String := m.pairs.map Prod.fst

/-- The value under a name. -/
def get? (m : Keyed α) (key : String) : Option α := m.pairs.lookup key

/-- Whether there is a value under a name. -/
def contains (m : Keyed α) (key : String) : Bool := m.keys.contains key

/-- How many names there are. -/
def size (m : Keyed α) : Nat := m.pairs.length

/-- Whether there is no name. -/
def isEmpty (m : Keyed α) : Bool := m.pairs.isEmpty

/-! ## Setting a name -/

/-- The pairs with a name set: in its place, or else at the end. -/
def setPair (key : String) (value : α) : List (String × α) → List (String × α)
  | [] => [(key, value)]
  | (k, v) :: rest => if k = key then (key, value) :: rest else (k, v) :: setPair key value rest

theorem keys_setPair (key : String) (value : α) (pairs : List (String × α)) :
    (setPair key value pairs).map Prod.fst =
      if key ∈ pairs.map Prod.fst then pairs.map Prod.fst else pairs.map Prod.fst ++ [key] := by
  induction pairs with
  | nil => simp [setPair]
  | cons pair rest ih =>
    obtain ⟨k, v⟩ := pair
    by_cases h : k = key
    · simp [setPair, h]
    · have h' : ¬key = k := fun e => h e.symm
      simp only [setPair, h, if_false, List.map_cons, ih, List.mem_cons, h', false_or]
      split <;> simp

theorem lookup_cons_ite (key other : String) (value : α) (rest : List (String × α)) :
    ((key, value) :: rest).lookup other =
      if other = key then some value else rest.lookup other := by
  by_cases h : other = key
  · simp [h]
  · rw [List.lookup_cons, beq_false_of_ne h, if_neg h]

theorem lookup_setPair (key other : String) (value : α) (pairs : List (String × α)) :
    (setPair key value pairs).lookup other =
      if other = key then some value else pairs.lookup other := by
  induction pairs with
  | nil => simp [setPair, lookup_cons_ite]
  | cons pair rest ih =>
    obtain ⟨k, v⟩ := pair
    by_cases h : k = key
    · simp only [setPair, h, if_true, lookup_cons_ite]
      split <;> rfl
    · simp only [setPair, h, if_false, lookup_cons_ite, ih]
      by_cases h' : other = k
      · subst h'
        simp [h]
      · simp [h']

theorem nodup_setPair {key : String} {value : α} {pairs : List (String × α)}
    (h : (pairs.map Prod.fst).Nodup) : ((setPair key value pairs).map Prod.fst).Nodup := by
  rw [keys_setPair]
  split
  · exact h
  · rename_i absent
    refine List.nodup_append.mpr ⟨h, by simp, ?_⟩
    intro a ha b hb
    rw [List.mem_singleton] at hb
    exact fun e => absent (by rw [← hb, ← e]; exact ha)

/-- Sets a name. -/
def set (m : Keyed α) (key : String) (value : α) : Keyed α :=
  ⟨setPair key value m.pairs, nodup_setPair m.distinct⟩

theorem keys_set (m : Keyed α) (key : String) (value : α) :
    (m.set key value).keys = if key ∈ m.keys then m.keys else m.keys ++ [key] :=
  keys_setPair key value m.pairs

theorem get?_set (m : Keyed α) (key other : String) (value : α) :
    (m.set key value).get? other = if other = key then some value else m.get? other :=
  lookup_setPair key other value m.pairs

/-- The pairs in the order given: the last value of a name at the place of its first. -/
def ofList (pairs : List (String × α)) : Keyed α :=
  pairs.foldl (fun m (key, value) => m.set key value) empty

/-! ## Erasing a name -/

/-- Takes a name out. -/
def erase (m : Keyed α) (key : String) : Keyed α :=
  ⟨m.pairs.filter fun pair => pair.1 != key,
    m.distinct.sublist ((List.filter_sublist).map Prod.fst)⟩

theorem keys_erase (m : Keyed α) (key : String) :
    (m.erase key).keys = m.keys.filter fun k => k != key := by
  simp only [keys, erase, List.filter_map]
  rfl

/-! ## Changing the values -/

/-- Every value changed, the names kept. -/
def map (m : Keyed α) (change : String → α → β) : Keyed β :=
  ⟨m.pairs.map fun (key, value) => (key, change key value), by
    have same : (m.pairs.map fun (key, value) => (key, change key value)).map Prod.fst =
        m.pairs.map Prod.fst := by simp [List.map_map, Function.comp_def]
    rw [same]
    exact m.distinct⟩

/-! ## Order -/

/-- Texts in ascending order of their characters. -/
def ascending (texts : List String) : List String := texts.mergeSort fun a b => decide (a ≤ b)

/-- The names in ascending order. -/
def sortedKeys (m : Keyed α) : List String := ascending m.keys

end Keyed

end MessageCatalog
