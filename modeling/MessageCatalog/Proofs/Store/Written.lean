import MessageCatalog.Proofs.Basic
import MessageCatalog.Proofs.Json.Faithful
import MessageCatalog.Proofs.Json.Written
import MessageCatalog.Proofs.Store.Merge

/-!
# MessageCatalog.Proofs.Store.Written -- what a written store is when it is read again

The members that a store writes are read back as a store. A whole entry comes back as it was; of one
that is written as its text alone, only the text does. Which keys come back is decided by the
selection and by nothing else.

The text of the file is read as these members. Of the further fields of an entry the numbers with a
fraction are read anew from their digits.
-/

namespace MessageCatalog.Json

/-! ## Members that were written -/

theorem map_fst_rereadMembers (members : List (String × Value)) :
    (rereadMembers members).map Prod.fst = members.map Prod.fst := by
  induction members with
  | nil => rfl
  | cons member rest ih =>
      obtain ⟨name, value⟩ := member
      rw [rereadMembers, List.map_cons, List.map_cons, ih]

theorem rereadItems_texts (texts : List String) :
    rereadItems (texts.map .text) = texts.map .text := by
  induction texts with
  | nil => rfl
  | cons text rest ih => rw [List.map_cons, rereadItems, ih, Value.reread]

end MessageCatalog.Json

namespace MessageCatalog.Store

open MessageCatalog.Json MessageCatalog.Text

/-! ## One entry -/

/-- What is left of an entry that was written. -/
def Entry.kept (entry : Entry) (flat : Bool) : Entry := if flat then ofText entry.value else entry

theorem Entry.filesOf_texts (files : List String) :
    filesOf (some (.array (files.map .text))) = .ok files := by
  cases files with
  | nil => rfl
  | cons file rest =>
      show Except.ok (((file :: rest).map Value.text).map Value.display) = _
      rw [List.map_map]
      simp [Function.comp_def, Value.display]

theorem Entry.ofJson_shape {entry : Entry} (h : entry.Separate) (flat : Bool) :
    Entry.ofJson (Entry.shape entry flat) = .ok (entry.kept flat) := by
  cases flat with
  | true => rfl
  | false =>
      have apart : entry.extra.filter (fun field => !Entry.ownFields.contains field.1) =
          entry.extra :=
        List.filter_eq_self.mpr fun field there => by simpa using h field there
      have fields : Entry.ofJson entry.toJson = do
          let files ← filesOf (some (.array (entry.files.map .text)))
          return ⟨entry.value, files,
            entry.extra.filter fun field => !Entry.ownFields.contains field.1⟩ := rfl
      show Entry.ofJson entry.toJson = .ok entry
      rw [fields, Entry.filesOf_texts, apart]
      rfl

/-! ## The keys -/

theorem mem_writtenKeys {store : Store} {selection : Option (List String)} {key : String} :
    key ∈ writtenKeys store selection ↔
      key ∈ store.keys ∧ ∀ keys ∈ selection, key ∈ keys := by
  cases selection with
  | none => simp [writtenKeys, Keyed.sortedKeys]
  | some keys => simp [writtenKeys, and_comm]

theorem nodup_writtenKeys (store : Store) (selection : Option (List String)) :
    (writtenKeys store selection).Nodup := by
  cases selection with
  | none => exact Keyed.nodup_ascending.mpr store.nodup_keys
  | some keys => exact Keyed.nodup_ascending.mpr (nodup_distinct _)

/-- The keys that are written: those of both stores, or those of the working set alone. -/
theorem mem_writtenKeys_extended {old working : Store} {purge : Bool} {key : String} :
    key ∈ writtenKeys (extendAll old (entries working) false)
        (if purge then some working.keys else none) ↔
      key ∈ working.keys ∨ (key ∈ old.keys ∧ ¬purge = true) := by
  rw [mem_writtenKeys, mem_keys_extendAll_entries]
  cases purge with
  | true =>
      simp only [if_true, Option.mem_def, Option.some.injEq, forall_eq', not_true, and_false,
        or_false]
      exact ⟨fun h => h.2, fun h => ⟨Or.inr h, h⟩⟩
  | false => simp [or_comm]

/-! ## The members -/

/-- The member that is written for a key. -/
def member (store : Store) (flat : Bool) (key : String) : Except Fault (String × Value) := do
  return (key, Entry.shape (← (← slot store key).ownEntry) flat)

theorem member_of_get? {store : Store} {key : String} {entry : Entry}
    (h : store.get? key = some (.entry entry)) (flat : Bool) :
    member store flat key = .ok (key, Entry.shape entry flat) := by
  rw [member, slot, h]
  rfl

/-- The entries that are read from the members of some keys. -/
theorem entriesOf_members {store : Store} (h : Holds Entry.Separate store) (flat : Bool)
    {keys : List String} (known : ∀ key ∈ keys, key ∈ store.keys) :
    ∃ members, keys.mapM (member store flat) = .ok members ∧
      ∃ entries, entriesOf members = .ok entries ∧ entries.map Prod.fst = keys ∧
        ∀ item ∈ entries, ∃ entry, store.get? item.1 = some (.entry entry) ∧
          item.2 = entry.kept flat := by
  induction keys with
  | nil => exact ⟨[], rfl, [], rfl, rfl, by simp⟩
  | cons key rest ih =>
      obtain ⟨members, written, entries, readBack, names, same⟩ :=
        ih fun other there => known other (List.mem_cons_of_mem _ there)
      obtain ⟨slot, found⟩ := (Keyed.mem_keys_iff store).mp (known key List.mem_cons_self)
      obtain ⟨entry, rfl, separate⟩ := h key slot found
      refine ⟨(key, Entry.shape entry flat) :: members, ?_, (key, entry.kept flat) :: entries,
        ?_, ?_, ?_⟩
      · rw [List.mapM_cons, member_of_get? found, written]
        rfl
      · rw [entriesOf, Entry.ofJson_shape separate, readBack]
        rfl
      · rw [List.map_cons, names]
      · rintro item (_ | ⟨_, there⟩)
        · exact ⟨entry, found, rfl⟩
        · exact same item there

theorem nodup_entries {entries : List (String × Entry)}
    (distinct : (entries.map Prod.fst).Nodup) :
    ((entries.map fun item => (item.1, Slot.entry item.2)).map Prod.fst).Nodup := by
  simpa [Function.comp_def] using distinct

theorem keys_ofEntries {entries : List (String × Entry)}
    (distinct : (entries.map Prod.fst).Nodup) : (ofEntries entries).keys = entries.map Prod.fst := by
  show (Keyed.ofList (entries.map fun item => (item.1, Slot.entry item.2))).pairs.map Prod.fst = _
  rw [Keyed.pairs_ofList (nodup_entries distinct)]
  simp

/-- The store of entries under distinct keys, each made from what another store has there. -/
theorem get?_ofEntries {store : Store} {kept : Entry → Entry} {entries : List (String × Entry)}
    (distinct : (entries.map Prod.fst).Nodup)
    (same : ∀ item ∈ entries, ∃ entry, store.get? item.1 = some (.entry entry) ∧
      item.2 = kept entry) (key : String) :
    (ofEntries entries).get? key =
      if key ∈ entries.map Prod.fst then
        (store.get? key).map fun slot => .entry (kept slot.toEntry)
      else none := by
  have apart := nodup_entries distinct
  split
  · next there =>
    obtain ⟨item, inside, rfl⟩ := List.mem_map.mp there
    obtain ⟨entry, found, left⟩ := same item inside
    show (Keyed.ofList (entries.map fun item => (item.1, Slot.entry item.2))).get? item.1 = _
    rw [Keyed.get?_ofList apart,
      (Keyed.lookup_eq_some_iff apart).mpr (List.mem_map.mpr ⟨item, inside, rfl⟩), found, left]
    rfl
  · next absent =>
    rw [Keyed.get?_eq_none_iff, keys_ofEntries distinct]
    exact absent

/-- A store of entries can be written, and its members are read as the selected keys with what is
left of their entries. -/
theorem ofJson_toMembers {store : Store} (h : Holds Entry.Separate store) (flat : Bool)
    (selection : Option (List String)) :
    ∃ members, toMembers store flat selection = .ok members ∧
      ∃ written, ofJson (.object members) = .ok written ∧
        ∀ key, written.get? key =
          if key ∈ writtenKeys store selection then
            (store.get? key).map fun slot => .entry (slot.toEntry.kept flat)
          else none := by
  have known : ∀ key ∈ writtenKeys store selection, key ∈ store.keys :=
    fun key there => (mem_writtenKeys.mp there).1
  obtain ⟨members, written, entries, readBack, names, same⟩ := entriesOf_members h flat known
  have distinct : (entries.map Prod.fst).Nodup := by
    rw [names]
    exact nodup_writtenKeys store selection
  refine ⟨members, written, ofEntries entries, ?_, fun key => ?_⟩
  · show (do return ofEntries (← entriesOf members)) = Except.ok _
    rw [readBack]
    rfl
  · -- the keys are distinct, so each is found with what was read for it
    rw [get?_ofEntries distinct same, names]

/-- Only a layout makes a text. -/
theorem exists_layout_of_write {store : Store} {layout : Option Layout} {flat : Bool}
    {selection : Option (List String)} {text : String}
    (wrote : Store.write store layout flat selection = .ok text) :
    ∃ chosen, layout = some chosen := by
  obtain ⟨members, -, wrote⟩ := exists_bind_eq_ok wrote
  cases layout with
  | none => cases wrote
  | some chosen => exact ⟨chosen, rfl⟩

/-! ## One entry in a file -/

/-- What an entry is read as when it has been written. -/
def Entry.reread (entry : Entry) : Entry :=
  { entry with extra := Members.ofList (rereadMembers entry.extra) }

/-- An entry that was written in either form is read with its text, and what was written of the rest
of it. -/
theorem Entry.ofJson_reread_shape {entry : Entry} (h : entry.Separate) (flat : Bool) :
    Entry.ofJson (Entry.shape entry flat).reread = .ok (entry.kept flat).reread := by
  cases flat with
  | true => rfl
  | false =>
      have names : ∀ name ∈ (rereadMembers entry.extra).map Prod.fst, name ∉ ownFields := by
        intro name there
        rw [map_fst_rereadMembers] at there
        obtain ⟨field, inside, rfl⟩ := List.mem_map.mp there
        exact h field inside
      have noValue : "value" ∉ (("files", .array (entry.files.map .text)) ::
          rereadMembers entry.extra).map Prod.fst := by
        rw [List.map_cons, List.mem_cons, not_or]
        refine ⟨?_, fun there => names "value" there (by decide)⟩
        show "value" ≠ "files"
        decide
      have noFiles : "files" ∉ (rereadMembers entry.extra).map Prod.fst :=
        fun there => names "files" there (by decide)
      have written : (Entry.shape entry false).reread =
          (entry.reread).toJson := by
        show Value.object (Members.ofList (("value", .text entry.value) ::
          ("files", .array (rereadItems (entry.files.map .text))) :: rereadMembers entry.extra)) = _
        rw [rereadItems_texts, Members.ofList_cons _ noValue, Members.ofList_cons _ noFiles]
        rfl
      have separate : entry.reread.Separate := by
        intro field there
        apply names
        rw [← Members.mem_names_ofList]
        exact List.mem_map.mpr ⟨field, there, rfl⟩
      rw [written]
      exact Entry.ofJson_shape separate false

/-! ## Many entries in a file -/

/-- The entries that are read from the members of some keys when these have been written. -/
theorem entriesOf_rereadMembers {store : Store} (h : Holds Entry.Separate store) (flat : Bool)
    {keys : List String} (known : ∀ key ∈ keys, key ∈ store.keys) :
    ∃ members, keys.mapM (member store flat) = .ok members ∧ members.map Prod.fst = keys ∧
      ∃ entries, entriesOf (rereadMembers members) = .ok entries ∧ entries.map Prod.fst = keys ∧
        ∀ item ∈ entries, ∃ entry, store.get? item.1 = some (.entry entry) ∧
          item.2 = (entry.kept flat).reread := by
  induction keys with
  | nil => exact ⟨[], rfl, rfl, [], rfl, rfl, by simp⟩
  | cons key rest ih =>
      obtain ⟨members, written, names, entries, readBack, keys, same⟩ :=
        ih fun other there => known other (List.mem_cons_of_mem _ there)
      obtain ⟨slot, found⟩ := (Keyed.mem_keys_iff store).mp (known key List.mem_cons_self)
      obtain ⟨entry, rfl, separate⟩ := h key slot found
      refine ⟨(key, Entry.shape entry flat) :: members, ?_, ?_,
        (key, (entry.kept flat).reread) :: entries, ?_, ?_, ?_⟩
      · rw [List.mapM_cons, member_of_get? found, written]
        rfl
      · rw [List.map_cons, names]
      · rw [rereadMembers, entriesOf, Entry.ofJson_reread_shape separate, readBack]
        rfl
      · rw [List.map_cons, keys]
      · rintro item (_ | ⟨_, there⟩)
        · exact ⟨entry, found, rfl⟩
        · exact same item there

/-! ## The file of a store -/

/-- A store of entries can be written. A file keeps the line ends of its text, and the text is read as
the selected keys, sorted, with what is left of their entries. -/
theorem read_text {store : Store} (h : Holds Entry.Separate store) {layout : Layout}
    (blank : layout.Blank) (flat : Bool) (selection : Option (List String)) (source : String) :
    ∃ text written, Store.write store (some layout) flat selection = .ok text ∧
      unifyLineEnds text.toList = text.toList ∧ Store.read source text.toList = .ok written ∧
      written.keys = writtenKeys store selection ∧
      ∀ key, written.get? key =
        if key ∈ writtenKeys store selection then
          (store.get? key).map fun slot => .entry (slot.toEntry.kept flat).reread
        else none := by
  obtain ⟨members, shaped, names, entries, readBack, keys, same⟩ :=
    entriesOf_rereadMembers h flat
      (fun key (there : key ∈ writtenKeys store selection) => (mem_writtenKeys.mp there).1)
  have distinct : (entries.map Prod.fst).Nodup := by
    rw [keys]
    exact nodup_writtenKeys store selection
  have apart : ((rereadMembers members).map Prod.fst).Nodup := by
    rw [map_fst_rereadMembers, names]
    exact nodup_writtenKeys store selection
  refine ⟨Json.write layout (.object members) ++ "\n", ofEntries entries, ?_,
    unifyLineEnds_write blank _, ?_, ?_, fun key => ?_⟩
  · unfold Store.write
    show (do
      let members ← (writtenKeys store selection).mapM (member store flat)
      return Json.write layout (.object members) ++ "\n" : Except Fault String) = _
    rw [shaped]
    rfl
  · rw [Store.read, read_text_write blank, Value.reread, Members.ofList_of_nodup apart]
    show (do return ofEntries (← entriesOf (rereadMembers members)) : Except Fault Store) = _
    rw [readBack]
    rfl
  · rw [keys_ofEntries distinct, keys]
  · rw [get?_ofEntries distinct same, keys]

/-- The file that a store was written to is read as the selected keys with what is left of their
entries. -/
theorem read_write {store : Store} (h : Holds Entry.Separate store) {layout : Layout}
    (blank : layout.Blank) {flat : Bool} {selection : Option (List String)} {text : String}
    (wrote : Store.write store (some layout) flat selection = .ok text) (source : String) :
    ∃ written, Store.read source (unifyLineEnds text.toList) = .ok written ∧
      ∀ key, written.get? key =
        if key ∈ writtenKeys store selection then
          (store.get? key).map fun slot => .entry (slot.toEntry.kept flat).reread
        else none := by
  obtain ⟨_, written, whole, own, readBack, -, same⟩ := read_text h blank flat selection source
  rw [wrote] at whole
  cases whole
  exact ⟨written, by rw [own, readBack], same⟩

end MessageCatalog.Store
