import MessageCatalog.Proofs.Keyed
import MessageCatalog.Store.Basic

/-!
# MessageCatalog.Proofs.Store.Merge -- what merging does to a store

Merging takes entries in without touching a text that is there. What stands under a key afterwards
depends on what stood there and on what comes, and on nothing else, so a whole merge is said by one
equation for the look-up. A working set is what merges alone have made: it holds entries only, and
their files are in order.
-/

namespace MessageCatalog.Store

open MessageCatalog.Json MessageCatalog.Text

namespace Entry

/-! ## Entries -/

/-- The further fields of an entry have none of the names that every entry has. -/
def Separate (entry : Entry) : Prop := ∀ field ∈ entry.extra, field.1 ∉ ownFields

/-- The files of an entry are in order, each once. -/
def Ordered (entry : Entry) : Prop := entry.files.Pairwise (· ≤ ·) ∧ entry.files.Nodup

theorem ordered_settled (entry : Entry) : entry.settled.Ordered :=
  ⟨Keyed.pairwise_ascending _, Keyed.nodup_ascending.mpr (nodup_distinct _)⟩

@[simp] theorem value_absorb (entry incoming : Entry) :
    (entry.absorb incoming false).value = entry.value := rfl

@[simp] theorem extra_absorb (entry incoming : Entry) (update : Bool) :
    (entry.absorb incoming update).extra = entry.extra := rfl

theorem mem_files_absorb {entry incoming : Entry} {update : Bool} {file : String} :
    file ∈ (entry.absorb incoming update).files ↔ file ∈ entry.files ∨ file ∈ incoming.files := by
  rw [absorb, Keyed.mem_ascending]
  split
  · next none =>
    rw [List.isEmpty_iff.mp none, mem_distinct]
    simp
  · exact mem_foldl_addNew

theorem ordered_absorb {entry : Entry} (h : entry.Ordered) (incoming : Entry) (update : Bool) :
    (entry.absorb incoming update).Ordered := by
  refine ⟨Keyed.pairwise_ascending _, Keyed.nodup_ascending.mpr ?_⟩
  split
  · exact nodup_distinct _
  · exact nodup_foldl_addNew h.2

theorem separate_of_ofJson {value : Value} {entry : Entry} (h : ofJson value = .ok entry) :
    entry.Separate := by
  cases value with
  | text value =>
      cases h
      intro field there
      cases there
  | object members =>
      rw [ofJson] at h
      cases hf : filesOf (Members.get? members "files") with
      | error fault =>
          rw [hf] at h
          cases h
      | ok files =>
          rw [hf] at h
          cases h
          intro field there
          have kept := (List.mem_filter.mp there).2
          simpa using kept
  | null | bool _ | int _ | real _ | array _ => cases h

end Entry

/-! ## One entry -/

/-- What stands under a key when an entry comes for it. -/
def merged (before : Option Slot) (incoming : Entry) : Entry :=
  match before with
  | some slot => slot.toEntry.absorb incoming false
  | none => incoming.settled

theorem get?_extend (store : Store) (key other : String) (incoming : Entry) :
    (extend store key incoming false).get? other =
      if other = key then some (.entry (merged (store.get? key) incoming))
      else store.get? other := by
  unfold extend merged
  cases store.get? key <;> exact Keyed.get?_set ..

/-! ## Many entries -/

/-- Entries under distinct keys are merged each on its own. -/
theorem get?_extendAll {entries : List (String × Entry)} (h : (entries.map Prod.fst).Nodup)
    (store : Store) (key : String) :
    (extendAll store entries false).get? key =
      match entries.lookup key with
      | some incoming => some (.entry (merged (store.get? key) incoming))
      | none => store.get? key := by
  induction entries generalizing store with
  | nil => rfl
  | cons first rest ih =>
      obtain ⟨name, entry⟩ := first
      rw [List.map_cons, List.nodup_cons] at h
      show (extendAll (extend store name entry false) rest false).get? key = _
      rw [ih h.2, Keyed.lookup_cons_ite, get?_extend]
      by_cases same : key = name
      · subst same
        have absent : rest.lookup key = none := Keyed.lookup_eq_none_iff.mpr h.1
        simp [absent]
      · simp [same]

theorem keys_entries (store : Store) : (entries store).map Prod.fst = store.keys := by
  simp [entries, Keyed.keys, Function.comp_def]

theorem lookup_entries (store : Store) (key : String) :
    (entries store).lookup key = (store.get? key).map Slot.toEntry := by
  unfold entries Keyed.get?
  induction store.pairs with
  | nil => rfl
  | cons pair rest ih =>
      rw [List.map_cons, Keyed.lookup_cons_ite, Keyed.lookup_cons_ite, ih]
      split <;> rfl

/-- A store that takes in another, key by key. -/
theorem get?_extendAll_entries (store working : Store) (key : String) :
    (extendAll store (entries working) false).get? key =
      match working.get? key with
      | some slot => some (.entry (merged (store.get? key) slot.toEntry))
      | none => store.get? key := by
  have names : ((entries working).map Prod.fst).Nodup := by
    rw [keys_entries]
    exact working.nodup_keys
  rw [get?_extendAll names, lookup_entries]
  cases working.get? key <;> rfl

theorem mem_keys_extendAll_entries {store working : Store} {key : String} :
    key ∈ (extendAll store (entries working) false).keys ↔
      key ∈ store.keys ∨ key ∈ working.keys := by
  rw [Keyed.mem_keys_iff, Keyed.mem_keys_iff, Keyed.mem_keys_iff, get?_extendAll_entries]
  cases working.get? key <;> simp

/-! ## Updates -/

theorem get?_extend_update (store : Store) (key other : String) (incoming : Entry) :
    (extend store key incoming true).get? other = (store.get? other).map fun slot =>
      if other = key then .entry (slot.toEntry.absorb incoming true) else slot := by
  unfold extend
  cases there : store.get? key with
  | none =>
      by_cases same : other = key
      · simp [same, there]
      · simp [same]
  | some slot =>
      show (Keyed.set store key _).get? other = _
      rw [Keyed.get?_set]
      by_cases same : other = key
      · simp [same, there]
      · simp [same]

/-- An update changes the entries under known keys, each on its own, and adds none. -/
theorem get?_extendAll_update {entries : List (String × Entry)}
    (h : (entries.map Prod.fst).Nodup) (store : Store) (key : String) :
    (extendAll store entries true).get? key = (store.get? key).map fun slot =>
      match entries.lookup key with
      | some incoming => .entry (slot.toEntry.absorb incoming true)
      | none => slot := by
  induction entries generalizing store with
  | nil => simp [extendAll]
  | cons first rest ih =>
      obtain ⟨name, entry⟩ := first
      rw [List.map_cons, List.nodup_cons] at h
      show (extendAll (extend store name entry true) rest true).get? key = _
      rw [ih h.2, get?_extend_update, Option.map_map]
      refine congrArg (Option.map · (store.get? key)) (funext fun slot => ?_)
      rw [Function.comp_apply, Keyed.lookup_cons_ite]
      by_cases same : key = name
      · subst same
        have absent : rest.lookup key = none := Keyed.lookup_eq_none_iff.mpr h.1
        simp [absent]
      · simp [same]

/-! ## Stores of entries -/

/-- A store holds entries only, and all of a kind. -/
def Holds (kind : Entry → Prop) (store : Store) : Prop :=
  ∀ key slot, store.get? key = some slot → ∃ entry, slot = .entry entry ∧ kind entry

theorem holds_empty (kind : Entry → Prop) : Holds kind Keyed.empty := by
  intro key slot h
  cases h

theorem Holds.extendAll {kind : Entry → Prop} {entries : List (String × Entry)} {store : Store}
    (stable : ∀ entry incoming, kind entry → kind (entry.absorb incoming false))
    (fresh : ∀ item ∈ entries, kind item.2.settled) (h : Holds kind store) :
    Holds kind (extendAll store entries false) := by
  induction entries generalizing store with
  | nil => exact h
  | cons first rest ih =>
      refine ih (fun item there => fresh item (List.mem_cons_of_mem _ there)) ?_
      intro key slot found
      rw [get?_extend] at found
      split at found
      · cases found
        refine ⟨_, rfl, ?_⟩
        unfold merged
        cases before : store.get? first.1 with
        | none => exact fresh first List.mem_cons_self
        | some slot =>
            obtain ⟨entry, rfl, good⟩ := h _ _ before
            exact stable entry first.2 good
      · exact h key slot found

/-- An update of entries leaves entries. -/
theorem holds_extendAll_update {store : Store} (h : Holds Entry.Separate store)
    (entries : Keyed Entry) : Holds Entry.Separate (extendAll store entries.pairs true) := by
  intro key slot found
  rw [get?_extendAll_update entries.nodup_keys] at found
  obtain ⟨before, held, rfl⟩ := Option.map_eq_some_iff.mp found
  obtain ⟨entry, rfl, separate⟩ := h key before held
  cases entries.pairs.lookup key with
  | none => exact ⟨entry, rfl, separate⟩
  | some incoming => exact ⟨_, rfl, separate⟩

theorem Holds.mem_entries {kind : Entry → Prop} {store : Store} (h : Holds kind store)
    {item : String × Entry} (there : item ∈ entries store) : kind item.2 := by
  obtain ⟨pair, hpair, rfl⟩ := List.mem_map.mp there
  obtain ⟨entry, same, good⟩ := h pair.1 pair.2 ((Keyed.get?_eq_some_iff store).mpr hpair)
  show kind pair.2.toEntry
  rw [same]
  exact good

/-! ## Stores that were read -/

theorem entriesOf_all {kind : Entry → Prop} {members : Members} {entries : List (String × Entry)}
    (one : ∀ member ∈ members, ∀ entry, Entry.ofJson member.2 = .ok entry → kind entry)
    (h : entriesOf members = .ok entries) : ∀ item ∈ entries, kind item.2 := by
  induction members generalizing entries with
  | nil =>
      cases h
      intro item there
      cases there
  | cons member rest ih =>
      obtain ⟨key, value⟩ := member
      rw [entriesOf] at h
      cases first : Entry.ofJson value with
      | error fault =>
          rw [first] at h
          cases h
      | ok entry =>
          cases others : entriesOf rest with
          | error fault =>
              rw [first, others] at h
              cases h
          | ok more =>
              rw [first, others] at h
              cases h
              rintro item (_ | ⟨_, there⟩)
              · exact one (key, value) List.mem_cons_self entry first
              · exact ih (fun member inside => one member (List.mem_cons_of_mem _ inside)) others
                  item there

/-- What is read holds entries, all of a kind when each of its values is read as one of that
kind. -/
theorem holds_of_ofJson {kind : Entry → Prop} {value : Value} {store : Store}
    (one : ∀ members, value = .object members → ∀ member ∈ members, ∀ entry,
      Entry.ofJson member.2 = .ok entry → kind entry) (h : ofJson value = .ok store) :
    Holds kind store := by
  cases value with
  | object members =>
      rw [ofJson] at h
      cases read : entriesOf members with
      | error fault =>
          rw [read] at h
          cases h
      | ok entries =>
          rw [read] at h
          cases h
          intro key slot found
          obtain ⟨item, there, same⟩ := List.mem_map.mp (Keyed.mem_of_get?_ofList found)
          cases same
          exact ⟨item.2, rfl, entriesOf_all (one members rfl) read item there⟩
  | null | bool _ | int _ | real _ | text _ | array _ => cases h

/-- A text that is read as a store is that of a value that is read as one. -/
theorem read_eq_ok {source : String} {text : List Char} {store : Store} :
    read source text = .ok store ↔ ∃ value, Json.read text = .ok value ∧ ofJson value = .ok store := by
  unfold read
  cases found : Json.read text with
  | ok value => simp
  | error unread => cases unread <;> simp

theorem holds_of_read {source : String} {text : List Char} {store : Store}
    (h : read source text = .ok store) : Holds Entry.Separate store := by
  obtain ⟨value, -, shaped⟩ := read_eq_ok.mp h
  exact holds_of_ofJson (fun _ _ _ _ _ shaped => Entry.separate_of_ofJson shaped) shaped

end MessageCatalog.Store
