import Mathlib.Data.Finset.Sort
import MessageCatalog.Proofs.Store.Order
import MessageCatalog.Proofs.Store.Stable

/-!
# MessageCatalog.Proofs.Store.Meaning -- what many merges come to

A store is merged into call by call, some calls creating what is not there and some only updating
what is. A key that a call took effect on has its files in ascending order from then on, and every
other key is as it was. Whether a file is named twice was decided before the first call. A call adds
only files that are new, so it makes no repetition and takes none out, whatever list the store was
read with. Only a message without files gets all of its files from a call, and then each once.

The meaning of a store forgets what a merge does not promise to keep. A message is its text, the set
of its files and its further fields, with no order and no count of files, and a bare text is a
message without files. On meanings a call is one line: it joins the files and, in an update, takes
the text that comes. Any run of calls on a store is the same run on its meanings. The store itself is
read off them: what a call took effect on lists its meaning, the files in order and each once, and
the rest is as it was.

Without updates this leaves little to chance. Neither the keys nor the files depend on the order of
the calls, and a call that has been made may be made again without a change to the store.
-/

namespace MessageCatalog.Store

open MessageCatalog.Json MessageCatalog.Text

/-! ## Calls -/

/-- One call: an entry comes for a key, and an update creates no key. -/
structure Call where
  key : String
  entry : Entry
  update : Bool

/-- A store after one call. -/
def Call.run (store : Store) (call : Call) : Store :=
  extend store call.key call.entry call.update

/-- A store after calls, in order. -/
def afterCalls (store : Store) (calls : List Call) : Store := calls.foldl Call.run store

/-- A call takes effect on a key: it comes for the key, and it may create it or finds it there. -/
def Call.ActsOn (call : Call) (store : Store) (key : String) : Prop :=
  key = call.key ∧ (call.update = false ∨ key ∈ store.keys)

instance (call : Call) (store : Store) (key : String) : Decidable (call.ActsOn store key) :=
  inferInstanceAs (Decidable (_ ∧ _))

/-- At least one of the calls takes effect on a key. -/
def Touched : (store : Store) → List Call → (key : String) → Prop
  | _, [], _ => False
  | store, call :: rest, key => call.ActsOn store key ∨ Touched (call.run store) rest key

instance decidableTouched : (store : Store) → (calls : List Call) → (key : String) →
    Decidable (Touched store calls key)
  | _, [], _ => inferInstanceAs (Decidable False)
  | store, call :: rest, key =>
    have := decidableTouched (call.run store) rest key
    inferInstanceAs (Decidable (_ ∨ _))

/-- What stands under a key after a call has taken effect on it. -/
def Call.taken (call : Call) : (before : Option Slot) → Entry
  | some slot => slot.toEntry.absorb call.entry call.update
  | none => call.entry.settled

variable {store : Store} {call : Call} {calls : List Call} {key : String}

/-! ## One call -/

theorem Call.actsOn_of_known {slot : Slot} (there : store.get? call.key = some slot) :
    call.ActsOn store call.key :=
  ⟨rfl, .inr ((Keyed.mem_keys_iff store).mpr ⟨slot, there⟩)⟩

theorem Call.actsOn_of_absent (absent : store.get? call.key = none) :
    call.ActsOn store call.key ↔ call.update = false := by
  have unknown : call.key ∉ store.keys := (Keyed.get?_eq_none_iff store).mp absent
  simp [Call.ActsOn, unknown]

/-- A call puts what it has taken in, or it changes nothing. -/
theorem run_eq (store : Store) (call : Call) :
    call.run store = if call.ActsOn store call.key then
      put store call.key (call.taken (store.get? call.key)) else store := by
  unfold Call.run extend
  cases before : store.get? call.key with
  | some slot =>
      rw [if_pos (Call.actsOn_of_known before)]
      rfl
  | none =>
      simp only [Call.actsOn_of_absent before]
      cases call.update <;> rfl

/-- All that a call does to a key. -/
theorem get?_run (store : Store) (call : Call) (key : String) :
    (call.run store).get? key =
      if call.ActsOn store key then some (.entry (call.taken (store.get? key)))
      else store.get? key := by
  rw [run_eq]
  by_cases own : call.ActsOn store call.key
  · rw [if_pos own, put, Keyed.get?_set]
    by_cases same : key = call.key
    · rw [if_pos same, same, if_pos own]
    · rw [if_neg same, if_neg fun acts => same acts.1]
  · have idle : ¬call.ActsOn store key := by
      intro acts
      exact own (acts.1 ▸ acts)
    rw [if_neg own, if_neg idle]

/-- What one call keeps, calls keep. -/
theorem afterCalls_keep {holds : Store → Prop}
    (one : ∀ store, holds store → ∀ call : Call, holds (call.run store)) (h : holds store)
    (calls : List Call) : holds (afterCalls store calls) :=
  List.foldlRecOn calls Call.run h fun store there call _ => one store there call

/-- A key that no call took effect on is as it was. -/
theorem get?_of_not_touched (idle : ¬Touched store calls key) :
    (afterCalls store calls).get? key = store.get? key := by
  induction calls generalizing store with
  | nil => rfl
  | cons call rest ih =>
      have now : ¬call.ActsOn store key := fun acts => idle (.inl acts)
      have later : ¬Touched (call.run store) rest key := fun touched => idle (.inr touched)
      calc (afterCalls (call.run store) rest).get? key
          = (call.run store).get? key := ih later
        _ = store.get? key := by rw [get?_run, if_neg now]

/-! ## Files in order -/

/-- Under a key is an entry with its files in ascending order. -/
def Sorted (store : Store) (key : String) : Prop :=
  ∃ entry, store.get? key = some (.entry entry) ∧ entry.files.Pairwise (· ≤ ·)

theorem pairwise_taken (call : Call) (before : Option Slot) :
    (call.taken before).files.Pairwise (· ≤ ·) := by
  cases before with
  | some slot => exact Keyed.pairwise_ascending _
  | none => exact Keyed.pairwise_ascending _

theorem sorted_run (acts : call.ActsOn store key) : Sorted (call.run store) key := by
  refine ⟨call.taken (store.get? key), ?_, pairwise_taken call _⟩
  rw [get?_run, if_pos acts]

theorem Sorted.run (sorted : Sorted store key) (call : Call) : Sorted (call.run store) key := by
  by_cases acts : call.ActsOn store key
  · exact sorted_run acts
  · obtain ⟨entry, there, order⟩ := sorted
    exact ⟨entry, by rw [get?_run, if_neg acts, there], order⟩

/-- A key that a call took effect on has its files in order, whatever comes behind. -/
theorem Touched.sorted (touched : Touched store calls key) :
    Sorted (afterCalls store calls) key := by
  induction calls generalizing store with
  | nil => exact touched.elim
  | cons call rest ih =>
      rcases touched with acts | later
      · have keeps : ∀ store, Sorted store key → ∀ call : Call, Sorted (call.run store) key :=
          fun _ sorted call => sorted.run call
        exact afterCalls_keep keeps (sorted_run acts) rest
      · exact ih later

/-! ## Files that are named twice -/

/-- The files under a key are listed once each. -/
def Once (store : Store) (key : String) : Prop :=
  ∀ slot, store.get? key = some slot → slot.toEntry.files.Nodup

theorem once_iff {entry : Entry} (found : store.get? key = some (.entry entry)) :
    Once store key ↔ entry.files.Nodup := by
  simp [Once, found, Slot.toEntry]

theorem nodup_foldl_addNew_iff {xs ys : List String} :
    (ys.foldl addNew xs).Nodup ↔ xs.Nodup := by
  refine ⟨fun h => ?_, nodup_foldl_addNew⟩
  induction ys generalizing xs with
  | nil => exact h
  | cons y ys ih =>
      have longer : xs <+: addNew xs y := by
        unfold addNew
        split
        · exact List.prefix_refl xs
        · exact List.prefix_append xs [y]
      exact (ih h).sublist longer.sublist

/-- A merge neither makes a repetition nor takes one out. -/
theorem Entry.nodup_absorb {entry incoming : Entry} {update : Bool} :
    (entry.absorb incoming update).files.Nodup ↔ entry.files.Nodup := by
  rw [Entry.absorb, Keyed.nodup_ascending]
  split
  · next none =>
    rw [List.isEmpty_iff.mp none]
    exact iff_of_true (nodup_distinct _) List.nodup_nil
  · exact nodup_foldl_addNew_iff

theorem once_run (store : Store) (call : Call) (key : String) :
    Once (call.run store) key ↔ Once store key := by
  by_cases acts : call.ActsOn store key
  · have found := get?_run store call key
    rw [if_pos acts] at found
    rw [once_iff found]
    cases before : store.get? key with
    | some slot => simp [Once, before, Call.taken, Entry.nodup_absorb]
    | none => simp [Once, before, Call.taken, (Entry.ordered_settled call.entry).2]
  · simp only [Once, get?_run, if_neg acts]

theorem once_afterCalls (store : Store) (calls : List Call) (key : String) :
    Once (afterCalls store calls) key ↔ Once store key :=
  afterCalls_keep (fun store same call => (once_run store call key).trans same) Iff.rfl calls

/-- A key that a call took effect on has its files in ascending order, and strictly ascending just
when none of them was named twice before the calls. -/
theorem ascending_afterCalls (store : Store) (calls : List Call) {key : String}
    (touched : Touched store calls key) :
    ∃ entry, (afterCalls store calls).get? key = some (.entry entry) ∧
      entry.files.Pairwise (· ≤ ·) ∧
      (entry.files.Pairwise (· < ·) ↔
        ∀ slot, store.get? key = some slot → slot.toEntry.files.Nodup) := by
  obtain ⟨entry, found, order⟩ := touched.sorted
  have once : entry.files.Nodup ↔ Once store key := by
    rw [← once_iff found, once_afterCalls]
  have strict : entry.files.Pairwise (· < ·) ↔ entry.files.Nodup := by
    simp only [lt_iff_le_and_ne, List.pairwise_and_iff, List.Nodup, order, true_and]
  exact ⟨entry, found, order, strict.trans once⟩

/-! ## A store that was read with a file named twice -/

/-- An object with one message, whose files are some texts. -/
def listing (files : List String) : Value :=
  .object [("Save", .object [("value", .text "Sichern"), ("files", .array (files.map .text))])]

/-- A call that comes with one file for that message. -/
def oneFile : Call := ⟨"Save", ⟨"Save", ["b.js"], []⟩, false⟩

/-- Files that are out of order are put in order when a call comes. -/
theorem ascending_outOfOrder :
    ∃ store, ofJson (listing ["c.js", "a.html"]) = .ok store ∧ Touched store [oneFile] "Save" ∧
      ∃ entry, (afterCalls store [oneFile]).get? "Save" = some (.entry entry) ∧
        entry.files.Pairwise (· < ·) := by
  have touched : ∀ store, Touched store [oneFile] "Save" := fun _ => .inl ⟨rfl, .inl rfl⟩
  refine ⟨_, rfl, touched _, ?_⟩
  obtain ⟨entry, found, -, strict⟩ := ascending_afterCalls _ [oneFile] (touched _)
  refine ⟨entry, found, strict.mpr fun slot there => ?_⟩
  cases there
  decide

/-- A file that the store was read with twice stays there twice. -/
theorem ascending_namedTwice :
    ¬∀ value store calls key entry, ofJson value = .ok store → Touched store calls key →
      (afterCalls store calls).get? key = some (.entry entry) → entry.files.Pairwise (· < ·) := by
  intro all
  obtain ⟨store, read⟩ : ∃ store, ofJson (listing ["a.html", "a.html"]) = .ok store := ⟨_, rfl⟩
  have touched : Touched store [oneFile] "Save" := .inl ⟨rfl, .inl rfl⟩
  obtain ⟨entry, found, -⟩ := touched.sorted
  have strict := all _ store [oneFile] "Save" entry read touched found
  have once : Once (afterCalls store [oneFile]) "Save" :=
    (once_iff found).mpr (strict.imp ne_of_lt)
  cases read
  exact absurd ((once_afterCalls _ _ _).mp once _ rfl) (by decide)

/-! ## Meanings -/

/-- What a message says: its text, the set of its files and its further fields. -/
structure Meaning where
  value : String
  files : Finset String
  extra : Members

/-- The meaning of an entry. -/
def Entry.meaning (entry : Entry) : Meaning := ⟨entry.value, entry.files.toFinset, entry.extra⟩

/-- The entry that lists a meaning: its files in order, each once. -/
def Meaning.listed (meaning : Meaning) : Entry :=
  ⟨meaning.value, meaning.files.sort, meaning.extra⟩

/-- The meanings under the keys of a store. -/
def meanings (store : Store) (key : String) : Option Meaning :=
  (store.get? key).map fun slot => slot.toEntry.meaning

/-- A message for which another comes: the files of both, and in an update the text that came. -/
def Meaning.join (meaning incoming : Meaning) (update : Bool) : Meaning where
  value := if update then incoming.value else meaning.value
  files := meaning.files ∪ incoming.files
  extra := meaning.extra

/-- What a call makes of the meanings under all keys. -/
def Call.act (under : String → Option Meaning) (call : Call) (key : String) : Option Meaning :=
  if key = call.key then
    match under key with
    | some meaning => some (meaning.join call.entry.meaning call.update)
    | none => if call.update then none else some call.entry.meaning
  else under key

theorem Entry.meaning_settled (entry : Entry) : entry.settled.meaning = entry.meaning := by
  have files : entry.settled.files.toFinset = entry.files.toFinset := by
    ext file
    simp [Entry.settled]
  simp only [Entry.meaning, files]
  rfl

theorem Entry.meaning_absorb (entry incoming : Entry) (update : Bool) :
    (entry.absorb incoming update).meaning = entry.meaning.join incoming.meaning update := by
  have files : (entry.absorb incoming update).files.toFinset =
      entry.files.toFinset ∪ incoming.files.toFinset := by
    ext file
    rw [List.mem_toFinset, Finset.mem_union, List.mem_toFinset, List.mem_toFinset]
    exact Entry.mem_files_absorb
  simp only [Entry.meaning, Meaning.join, files]
  rfl

/-- An entry whose files are in order, each once, is what lists its meaning. -/
theorem Entry.Ordered.listed {entry : Entry} (h : entry.Ordered) :
    entry.meaning.listed = entry := by
  have files : entry.files.toFinset.sort = entry.files :=
    (List.toFinset_sort (r := (· ≤ ·)) h.2).mpr h.1
  simp only [Entry.meaning, Meaning.listed, files]

/-! ## A run on a store and on its meanings -/

theorem meanings_run (store : Store) (call : Call) :
    meanings (call.run store) = call.act (meanings store) := by
  funext key
  show ((call.run store).get? key).map (fun slot => slot.toEntry.meaning) =
    if key = call.key then
      match (store.get? key).map fun slot => slot.toEntry.meaning with
      | some meaning => some (meaning.join call.entry.meaning call.update)
      | none => if call.update then none else some call.entry.meaning
    else (store.get? key).map fun slot => slot.toEntry.meaning
  rw [get?_run]
  by_cases same : key = call.key
  · subst same
    rw [if_pos rfl]
    cases before : store.get? call.key with
    | some slot =>
        rw [if_pos (Call.actsOn_of_known before)]
        exact congrArg some (Entry.meaning_absorb slot.toEntry call.entry call.update)
    | none =>
        simp only [Call.actsOn_of_absent before]
        cases call.update with
        | true => rfl
        | false => exact congrArg some (Entry.meaning_settled call.entry)
  · have idle : ¬call.ActsOn store key := fun acts => same acts.1
    rw [if_neg same, if_neg idle]

theorem meanings_afterCalls (store : Store) (calls : List Call) :
    meanings (afterCalls store calls) = calls.foldl Call.act (meanings store) := by
  induction calls generalizing store with
  | nil => rfl
  | cons call rest ih =>
      show meanings (afterCalls (call.run store) rest) =
        rest.foldl Call.act (call.act (meanings store))
      rw [ih, meanings_run]

/-- A key that a call took effect on lists what the calls make of its meaning. -/
theorem Touched.listed (touched : Touched store calls key) (once : Once store key) :
    ∃ meaning, calls.foldl Call.act (meanings store) key = some meaning ∧
      (afterCalls store calls).get? key = some (.entry meaning.listed) := by
  obtain ⟨entry, found, order⟩ := touched.sorted
  have ordered : entry.Ordered :=
    ⟨order, (once_iff found).mp ((once_afterCalls store calls key).mpr once)⟩
  refine ⟨entry.meaning, ?_, ?_⟩
  · rw [← meanings_afterCalls, meanings, found]
    rfl
  · rw [found, ordered.listed]

/-! ## In any order -/

/-- The files under a key, if it is there. -/
def filesUnder (store : Store) (key : String) : Option (List String) :=
  (store.get? key).map fun slot => slot.toEntry.files

theorem mem_keys_iff_filesUnder : key ∈ store.keys ↔ (filesUnder store key).isSome = true := by
  rw [filesUnder, Option.isSome_map, Option.isSome_iff_exists, Keyed.mem_keys_iff]

theorem afterCalls_eq (create : ∀ call ∈ calls, call.update = false) :
    afterCalls store calls =
      extendAll store (calls.map fun call => (call.key, call.entry)) false := by
  induction calls generalizing store with
  | nil => rfl
  | cons call rest ih =>
      have first : call.run store = extend store call.key call.entry false := by
        rw [Call.run, create call List.mem_cons_self]
      show afterCalls (call.run store) rest = _
      rw [ih fun other there => create other (List.mem_cons_of_mem _ there), first]
      rfl

theorem filesUnder_perm {others : List Call} (create : ∀ call ∈ calls, call.update = false)
    (order : calls.Perm others) (key : String) :
    filesUnder (afterCalls store calls) key = filesUnder (afterCalls store others) key := by
  have create' : ∀ call ∈ others, call.update = false :=
    fun call there => create call (order.mem_iff.mpr there)
  unfold filesUnder
  rw [afterCalls_eq create, afterCalls_eq create', get?_extendAll_gathered,
    get?_extendAll_gathered]
  exact files_gathered_perm ((order.map _).filterMap _) _

/-! ## Any number of times -/

/-- A store knows a call: the files that came with it are among those under its key, which are in
order. -/
def Knows (store : Store) (call : Call) : Prop :=
  ∃ entry, store.get? call.key = some (.entry entry) ∧ entry.files.Pairwise (· ≤ ·) ∧
    ∀ file ∈ call.entry.files, file ∈ entry.files

theorem knows_run (create : call.update = false) (store : Store) :
    Knows (call.run store) call := by
  have acts : call.ActsOn store call.key := ⟨rfl, .inl create⟩
  refine ⟨call.taken (store.get? call.key), ?_, pairwise_taken call _, fun file there => ?_⟩
  · rw [get?_run, if_pos acts]
  · cases store.get? call.key with
    | some slot => exact Entry.mem_files_absorb.mpr (.inr there)
    | none => exact Keyed.mem_ascending.mpr (mem_distinct.mpr there)

theorem Knows.run (knows : Knows store call) (other : Call) : Knows (other.run store) call := by
  obtain ⟨entry, found, order, inside⟩ := knows
  by_cases acts : other.ActsOn store call.key
  · refine ⟨other.taken (store.get? call.key), ?_, pairwise_taken other _, fun file there => ?_⟩
    · rw [get?_run, if_pos acts]
    · rw [found]
      exact Entry.mem_files_absorb.mpr (.inl (inside file there))
  · exact ⟨entry, by rw [get?_run, if_neg acts, found], order, inside⟩

/-- A call that may create is known from then on. -/
theorem knows_afterCalls (create : call.update = false) (there : call ∈ calls) :
    Knows (afterCalls store calls) call := by
  induction calls generalizing store with
  | nil => cases there
  | cons first rest ih =>
      rcases List.mem_cons.mp there with rfl | later
      · have keeps : ∀ store, Knows store call → ∀ other : Call, Knows (other.run store) call :=
          fun _ knows other => knows.run other
        exact afterCalls_keep keeps (knows_run create store) rest
      · exact ih later

/-- A call that is known changes nothing. -/
theorem Knows.again (knows : Knows store call) (create : call.update = false) :
    call.run store = store := by
  obtain ⟨entry, found, order, inside⟩ := knows
  have same : call.taken (store.get? call.key) = entry := by
    rw [found, Call.taken, create]
    exact Entry.absorb_again order inside
  rw [run_eq, if_pos (Call.actsOn_of_known found), same]
  exact Keyed.set_of_get? found

theorem afterCalls_again {again : List Call} (create : ∀ call ∈ again, call.update = false)
    (made : ∀ call ∈ again, call ∈ calls) :
    afterCalls (afterCalls store calls) again = afterCalls store calls := by
  induction again with
  | nil => rfl
  | cons call rest ih =>
      have first : call ∈ call :: rest := List.mem_cons_self
      have idle : call.run (afterCalls store calls) = afterCalls store calls :=
        (knows_afterCalls (create call first) (made call first)).again (create call first)
      show afterCalls (call.run (afterCalls store calls)) rest = _
      rw [idle]
      exact ih (fun other there => create other (List.mem_cons_of_mem _ there))
        fun other there => made other (List.mem_cons_of_mem _ there)

/-! ## All of it -/

/-- Calls on a store whose files are listed once each, said on its meanings. A key that a call took
effect on lists its meaning, every other key is as it was, and without updates neither the order of
the calls nor a repetition decides the keys and the files. -/
theorem afterCalls_refines {store : Store}
    (once : ∀ key slot, store.get? key = some slot → slot.toEntry.files.Nodup)
    (calls : List Call) :
    meanings (afterCalls store calls) = calls.foldl Call.act (meanings store) ∧
    (∀ key, Touched store calls key →
      ∃ meaning, calls.foldl Call.act (meanings store) key = some meaning ∧
        (afterCalls store calls).get? key = some (.entry meaning.listed)) ∧
    (∀ key, ¬Touched store calls key →
      (afterCalls store calls).get? key = store.get? key) ∧
    ((∀ call ∈ calls, call.update = false) →
      (∀ others, calls.Perm others → ∀ key,
        (key ∈ (afterCalls store calls).keys ↔ key ∈ (afterCalls store others).keys) ∧
        filesUnder (afterCalls store calls) key = filesUnder (afterCalls store others) key) ∧
      ∀ again rest, (∀ call ∈ again, call ∈ calls) →
        afterCalls store (calls ++ again ++ rest) = afterCalls store (calls ++ rest)) := by
  refine ⟨meanings_afterCalls store calls, fun key touched => touched.listed (once key),
    fun key idle => get?_of_not_touched idle, fun create => ⟨fun others order key => ?_,
    fun again rest made => ?_⟩⟩
  · have files : filesUnder (afterCalls store calls) key = filesUnder (afterCalls store others) key :=
      filesUnder_perm create order key
    refine ⟨?_, files⟩
    rw [mem_keys_iff_filesUnder, mem_keys_iff_filesUnder, files]
  · have idle : afterCalls store (calls ++ again) = afterCalls store calls := by
      rw [afterCalls, List.foldl_append]
      exact afterCalls_again (fun call there => create call (made call there)) made
    calc afterCalls store (calls ++ again ++ rest)
        = afterCalls (afterCalls store (calls ++ again)) rest := List.foldl_append
      _ = afterCalls (afterCalls store calls) rest := by rw [idle]
      _ = afterCalls store (calls ++ rest) := List.foldl_append.symm

/-- A store with an entry, a bare text and a message without files. -/
def mixedStore : Store :=
  Keyed.ofList [("Save", .entry ⟨"Sichern", ["b.js"], [("note", .text "menu")]⟩),
    ("Open", .bare "Auf"), ("Close", .entry ⟨"Zu", [], []⟩)]

/-- Calls of both modes: for each message, and an update for one that is not there. -/
def mixedCalls : List Call :=
  [⟨"Save", ⟨"Save", ["c.js", "a.html", "b.js", "a.html"], []⟩, false⟩,
    ⟨"Open", ⟨"Öffnen", ["b.js"], []⟩, true⟩, ⟨"Quit", Entry.ofText "Ende", true⟩,
    ⟨"Close", ⟨"Close", ["b.js", "b.js"], []⟩, false⟩]

/-- The entry keeps its text and lists the files of both; the update of what is not there leaves
that key alone. -/
theorem afterCalls_mixedStore :
    (∀ key slot, mixedStore.get? key = some slot → slot.toEntry.files.Nodup) ∧
      Touched mixedStore mixedCalls "Save" ∧
      (∃ meaning, mixedCalls.foldl Call.act (meanings mixedStore) "Save" = some meaning ∧
        (afterCalls mixedStore mixedCalls).get? "Save" = some (.entry meaning.listed) ∧
        meaning.value = "Sichern" ∧ meaning.files = {"a.html", "b.js", "c.js"}) ∧
      ¬Touched mixedStore mixedCalls "Quit" ∧
      (afterCalls mixedStore mixedCalls).get? "Quit" = none := by
  have once : ∀ key slot, mixedStore.get? key = some slot → slot.toEntry.files.Nodup := by
    intro key slot found
    have there : ∀ pair ∈ mixedStore.pairs, pair.2.toEntry.files.Nodup := by decide +kernel
    exact there (key, slot) ((Keyed.get?_eq_some_iff mixedStore).mp found)
  have touched : Touched mixedStore mixedCalls "Save" := .inl ⟨rfl, .inl rfl⟩
  have idle : ¬Touched mixedStore mixedCalls "Quit" := by decide +kernel
  obtain ⟨-, listed, same, -⟩ := afterCalls_refines once mixedCalls
  obtain ⟨meaning, means, found⟩ := listed "Save" touched
  have value : (mixedCalls.foldl Call.act (meanings mixedStore) "Save").map Meaning.value =
      some "Sichern" := by decide +kernel
  have files : (mixedCalls.foldl Call.act (meanings mixedStore) "Save").map Meaning.files =
      some {"a.html", "b.js", "c.js"} := by decide +kernel
  rw [means] at value files
  exact ⟨once, touched, ⟨meaning, means, found, Option.some.inj value, Option.some.inj files⟩, idle,
    (same "Quit" idle).trans (by decide +kernel)⟩

end MessageCatalog.Store
