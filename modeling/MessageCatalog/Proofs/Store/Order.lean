import MessageCatalog.Proofs.Store.Merge

/-!
# MessageCatalog.Proofs.Store.Order -- which part of a merge its order decides

Entries for one key may come several times and in any order. The files are gathered: they come out
the same whatever the order is, since they are sorted after each step and a file is added once. The
further fields are those of the first entry, and so is the text. Hence the order of a merge shows in
the text and the further fields of a new key, and nowhere else.
-/

namespace MessageCatalog.Keyed

theorem ascending_congr {xs ys : List String} (h : xs.Perm ys) : ascending xs = ascending ys := by
  have same : (ascending xs).Perm (ascending ys) :=
    (ascending_perm xs).trans (h.trans (ascending_perm ys).symm)
  exact same.eq_of_pairwise (fun a b _ _ hab hba => le_antisymm hab hba)
    (pairwise_ascending xs) (pairwise_ascending ys)

end MessageCatalog.Keyed

namespace MessageCatalog.Text

variable {α : Type} [BEq α] [LawfulBEq α]

/-! ## Adding in any order -/

theorem addNew_perm {xs ys : List α} (h : xs.Perm ys) (x : α) :
    (addNew xs x).Perm (addNew ys x) := by
  by_cases there : x ∈ xs
  · have there' : x ∈ ys := h.mem_iff.mp there
    simpa [addNew, there, there'] using h
  · have absent : x ∉ ys := fun there' => there (h.mem_iff.mpr there')
    simpa [addNew, there, absent] using h.append_right [x]

theorem addNew_comm (xs : List α) (x y : α) :
    (addNew (addNew xs x) y).Perm (addNew (addNew xs y) x) := by
  by_cases same : x = y
  · rw [same]
  · by_cases hx : x ∈ xs <;> by_cases hy : y ∈ xs
    · simp [addNew, hx, hy]
    · simp [addNew, hx, hy]
    · simp [addNew, hx, hy]
    · -- both are new: they stand at the end, in either order
      have hyx : y ∉ xs ++ [x] := by simp [hy, Ne.symm same]
      have hxy : x ∉ xs ++ [y] := by simp [hx, same]
      have swapped : (xs ++ ([x] ++ [y])).Perm (xs ++ ([y] ++ [x])) :=
        List.perm_append_comm.append_left xs
      simpa [addNew, hx, hy, hyx, hxy] using swapped

theorem foldl_addNew_perm {xs ys : List α} (h : xs.Perm ys) (zs : List α) :
    (zs.foldl addNew xs).Perm (zs.foldl addNew ys) := by
  induction zs generalizing xs ys with
  | nil => exact h
  | cons z zs ih => exact ih (addNew_perm h z)

theorem addNew_foldl_comm (xs zs : List α) (x : α) :
    (addNew (zs.foldl addNew xs) x).Perm (zs.foldl addNew (addNew xs x)) := by
  induction zs generalizing xs with
  | nil => exact List.Perm.refl _
  | cons z zs ih =>
      have moved := ih (addNew xs z)
      exact moved.trans (foldl_addNew_perm (addNew_comm xs z x) zs)

theorem foldl_addNew_comm (xs ys zs : List α) :
    (zs.foldl addNew (ys.foldl addNew xs)).Perm (ys.foldl addNew (zs.foldl addNew xs)) := by
  induction zs generalizing xs with
  | nil => exact List.Perm.refl _
  | cons z zs ih =>
      rw [List.foldl_cons, List.foldl_cons]
      have front : (addNew (ys.foldl addNew xs) z).Perm (ys.foldl addNew (addNew xs z)) :=
        addNew_foldl_comm xs ys z
      exact (foldl_addNew_perm front zs).trans (ih (addNew xs z))

end MessageCatalog.Text

namespace MessageCatalog.Store

open MessageCatalog.Text

namespace Entry

/-! ## Entries that come for one key -/

/-- The files of an entry with those of another that comes for its key. -/
def filesWith (files : List String) (incoming : Entry) : List String :=
  Keyed.ascending (incoming.files.foldl addNew files)

theorem files_absorb (entry incoming : Entry) (update : Bool) :
    (entry.absorb incoming update).files = filesWith entry.files incoming := by
  unfold absorb filesWith
  split
  · next none =>
    rw [List.isEmpty_iff.mp none]
    rfl
  · rfl

theorem filesWith_comm (files : List String) (one other : Entry) :
    filesWith (filesWith files one) other = filesWith (filesWith files other) one := by
  -- sorting in between does not matter, since the files are sorted again
  have inner : ∀ a b : Entry, filesWith (filesWith files a) b =
      Keyed.ascending (b.files.foldl addNew (a.files.foldl addNew files)) := by
    intro a b
    exact Keyed.ascending_congr (foldl_addNew_perm (Keyed.ascending_perm _) b.files)
  rw [inner, inner]
  exact Keyed.ascending_congr (foldl_addNew_comm files one.files other.files)

theorem foldl_filesWith_perm {incoming others : List Entry} (order : incoming.Perm others)
    (files : List String) : incoming.foldl filesWith files = others.foldl filesWith files :=
  order.foldl_eq' (fun one _ other _ files => filesWith_comm files one other) files

/-- An entry after others have come for its key. -/
def absorbAll (entry : Entry) (incoming : List Entry) : Entry :=
  incoming.foldl (fun entry next => entry.absorb next false) entry

theorem files_absorbAll (entry : Entry) (incoming : List Entry) :
    (entry.absorbAll incoming).files = incoming.foldl filesWith entry.files := by
  induction incoming generalizing entry with
  | nil => rfl
  | cons first rest ih =>
      have step := ih (entry.absorb first false)
      rw [files_absorb] at step
      exact step

@[simp] theorem value_absorbAll (entry : Entry) (incoming : List Entry) :
    (entry.absorbAll incoming).value = entry.value := by
  induction incoming generalizing entry with
  | nil => rfl
  | cons first rest ih => exact ih (entry.absorb first false)

@[simp] theorem extra_absorbAll (entry : Entry) (incoming : List Entry) :
    (entry.absorbAll incoming).extra = entry.extra := by
  induction incoming generalizing entry with
  | nil => rfl
  | cons first rest ih => exact ih (entry.absorb first false)

end Entry

/-! ## A merge in which keys come again -/

/-- The entries that come for a key, in order. -/
def under (key : String) (entries : List (String × Entry)) : List Entry :=
  entries.filterMap fun (name, entry) => if key = name then some entry else none

/-- What stands under a key after entries have come for it, given what stood there. -/
def gathered : (before : Option Slot) → (incoming : List Entry) → Option Slot
  | before, [] => before
  | some slot, first :: rest => some (.entry (slot.toEntry.absorbAll (first :: rest)))
  | none, first :: rest => some (.entry (first.settled.absorbAll rest))

theorem gathered_merged (before : Option Slot) (first : Entry) (rest : List Entry) :
    gathered (some (.entry (merged before first))) rest = gathered before (first :: rest) := by
  cases before <;> cases rest <;> rfl

/-- What a merge leaves under a key: the entries for it, taken in one after the other. -/
theorem get?_extendAll_gathered (store : Store) (entries : List (String × Entry)) (key : String) :
    (extendAll store entries false).get? key = gathered (store.get? key) (under key entries) := by
  induction entries generalizing store with
  | nil => rfl
  | cons item rest ih =>
      obtain ⟨name, entry⟩ := item
      have step : (extendAll store ((name, entry) :: rest) false).get? key =
          gathered ((extend store name entry false).get? key) (under key rest) :=
        ih (extend store name entry false)
      rw [step, get?_extend]
      by_cases same : key = name
      · subst same
        have here : under key ((key, entry) :: rest) = entry :: under key rest := by simp [under]
        rw [if_pos rfl, here, gathered_merged]
      · have here : under key ((name, entry) :: rest) = under key rest := by simp [under, same]
        rw [if_neg same, here]

/-! ## What the order decides -/

theorem isSome_gathered (before : Option Slot) (incoming : List Entry) :
    (gathered before incoming).isSome = (before.isSome || !incoming.isEmpty) := by
  cases before <;> cases incoming <;> rfl

/-- The files under a key are the same whatever the order is. -/
theorem files_gathered_perm {incoming others : List Entry} (order : incoming.Perm others)
    (before : Option Slot) :
    (gathered before incoming).map (fun slot => slot.toEntry.files) =
      (gathered before others).map (fun slot => slot.toEntry.files) := by
  cases incoming with
  | nil => rw [order.nil_eq]
  | cons first rest =>
      cases others with
      | nil => exact absurd order.eq_nil (List.cons_ne_nil _ _)
      | cons first' rest' =>
          cases before with
          | some slot =>
              simp only [gathered, Option.map_some, Slot.toEntry, Entry.files_absorbAll]
              rw [Entry.foldl_filesWith_perm order]
          | none =>
              -- the first entry is settled: its files are added to none
              have settled : ∀ (entry : Entry) (rest : List Entry),
                  rest.foldl Entry.filesWith entry.settled.files =
                    (entry :: rest).foldl Entry.filesWith [] := fun _ _ => rfl
              simp only [gathered, Option.map_some, Slot.toEntry, Entry.files_absorbAll, settled]
              rw [Entry.foldl_filesWith_perm order]

/-- The text under a key is the one that stood there, or else the first that comes. -/
theorem value_gathered (before : Option Slot) (incoming : List Entry) :
    (gathered before incoming).map (fun slot => slot.toEntry.value) =
      (before.map fun slot => slot.toEntry.value).or (incoming.head?.map Entry.value) := by
  cases before <;> cases incoming <;> simp [gathered, Slot.toEntry, Entry.settled]

/-- The further fields are those that stood there, or else those that come first. -/
theorem extra_gathered (before : Option Slot) (incoming : List Entry) :
    (gathered before incoming).map (fun slot => slot.toEntry.extra) =
      (before.map fun slot => slot.toEntry.extra).or (incoming.head?.map Entry.extra) := by
  cases before <;> cases incoming <;> simp [gathered, Slot.toEntry, Entry.settled]

end MessageCatalog.Store
