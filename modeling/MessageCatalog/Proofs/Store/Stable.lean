import MessageCatalog.Proofs.Json.Faithful
import MessageCatalog.Proofs.Store.Order
import MessageCatalog.Proofs.Store.Written

/-!
# MessageCatalog.Proofs.Store.Stable -- a written store is read as it was and written the same again

Nothing of a store is lost on its way through a text when the further fields of its entries hold no
numbers with a fraction or an exponent. The store that is read has the selected keys in ascending
order. What is written depends on the entries of the written keys and on nothing else, so writing
what was read gives the same text.

What was written of a store that had taken a working set in has all keys of that set, and under each
all of its files. Taken in once more, the set finds nothing to add, also when its texts are others
and its files came in another order. So the store is written as the same text again. Written as
texts alone it has lost its files, adopts them anew, and loses them again in the same way.
-/

namespace MessageCatalog.Json

/-! ## Values that are read as they were -/

mutual
/-- A value without numbers that have a fraction or an exponent. An object has each of its names
once. -/
inductive Value.Whole : Value → Prop where
  | null : Value.Whole .null
  | bool (b : Bool) : Value.Whole (.bool b)
  | int (n : Int) : Value.Whole (.int n)
  | text (s : String) : Value.Whole (.text s)
  | array {items : List Value} : WholeItems items → Value.Whole (.array items)
  | object {members : Members} :
      (members.map Prod.fst).Nodup → WholeMembers members → Value.Whole (.object members)

/-- The items of an array of such values. -/
inductive WholeItems : List Value → Prop where
  | nil : WholeItems []
  | cons {value : Value} {others : List Value} :
      value.Whole → WholeItems others → WholeItems (value :: others)

/-- Members with such values. -/
inductive WholeMembers : Members → Prop where
  | nil : WholeMembers []
  | cons (name : String) {value : Value} {others : Members} :
      value.Whole → WholeMembers others → WholeMembers ((name, value) :: others)
end

mutual
theorem Value.Whole.faithful {value : Value} : value.Whole → value.Faithful
  | .null => .null
  | .bool b => .bool b
  | .int n => .int n
  | .text s => .text s
  | .array items => .array items.faithful
  | .object distinct members => .object distinct members.faithful

theorem WholeItems.faithful {items : List Value} : WholeItems items → ∀ v ∈ items, v.Faithful
  | .nil => nofun
  | .cons value others => List.forall_mem_cons.mpr ⟨value.faithful, others.faithful⟩

theorem WholeMembers.faithful {members : Members} :
    WholeMembers members → ∀ member ∈ members, member.2.Faithful
  | .nil => nofun
  | .cons _ value others => List.forall_mem_cons.mpr ⟨value.faithful, others.faithful⟩
end

/-- The layout of an indentation: one line, or one item a line behind so many spaces. -/
def Layout.ofIndent : Option Int → Layout
  | none => .line
  | some count => .spaces count

theorem Layout.blank_ofIndent : ∀ indent, (Layout.ofIndent indent).Blank
  | none => trivial
  | some count => Layout.blank_spaces count

end MessageCatalog.Json

namespace MessageCatalog.Store

open MessageCatalog.Json MessageCatalog.Text

/-! ## Entries that are read as they were -/

/-- An entry as it can come from a file, without numbers that have a fraction or an exponent. -/
structure Entry.Whole (entry : Entry) : Prop where
  separate : entry.Separate
  distinct : (entry.extra.map Prod.fst).Nodup
  whole : WholeMembers entry.extra

/-- An entry as it comes from a file. -/
structure Entry.Faithful (entry : Entry) : Prop where
  separate : entry.Separate
  distinct : (entry.extra.map Prod.fst).Nodup
  all : ∀ field ∈ entry.extra, field.2.Faithful

theorem Entry.Faithful.reread {entry : Entry} (h : entry.Faithful) : entry.reread = entry := by
  rw [Entry.reread, rereadMembers_of fun field there => (h.all field there).reread,
    Members.ofList_of_nodup h.distinct]

theorem Entry.Whole.faithful {entry : Entry} (h : entry.Whole) : entry.Faithful :=
  ⟨h.separate, h.distinct, h.whole.faithful⟩

variable {store other : Store} {selection selection' : Option (List String)}

/-! ## What the text depends on -/

theorem pairwise_writtenKeys (store : Store) (selection : Option (List String)) :
    (writtenKeys store selection).Pairwise (· < ·) := by
  have ascending : (writtenKeys store selection).Pairwise (· ≤ ·) := by
    cases selection with
    | none | some _ => exact Keyed.pairwise_ascending _
  exact ascending.imp₂ (fun _ _ => lt_of_le_of_ne) (nodup_writtenKeys store selection)

/-- The keys that are written are known from which they are. -/
theorem writtenKeys_congr
    (h : ∀ key, key ∈ writtenKeys store selection ↔ key ∈ writtenKeys other selection') :
    writtenKeys store selection = writtenKeys other selection' := by
  have perm := (List.perm_ext_iff_of_nodup (nodup_writtenKeys store selection)
    (nodup_writtenKeys other selection')).mpr h
  exact perm.eq_of_pairwise (fun _ _ _ _ less more => absurd (less.trans more) (lt_irrefl _))
    (pairwise_writtenKeys store selection) (pairwise_writtenKeys other selection')

theorem mapM_member_congr {flat : Bool} {keys : List String}
    (same : ∀ key ∈ keys, member store flat key = member other flat key) :
    keys.mapM (member store flat) = keys.mapM (member other flat) := by
  induction keys with
  | nil => rfl
  | cons key rest ih =>
      rw [List.mapM_cons, List.mapM_cons, same key List.mem_cons_self,
        ih fun other there => same other (.tail _ there)]

/-- A text shows the written keys and their members, and nothing else of a store. -/
theorem write_congr (keys : writtenKeys store selection = writtenKeys other selection')
    {flat : Bool}
    (same : ∀ key ∈ writtenKeys store selection, member store flat key = member other flat key)
    (layout : Option Layout) :
    Store.write store layout flat selection = Store.write other layout flat selection' := by
  have members : toMembers store flat selection = toMembers other flat selection' := by
    show (writtenKeys store selection).mapM (member store flat) =
      (writtenKeys other selection').mapM (member other flat)
    rw [← keys, mapM_member_congr same]
  rw [Store.write, Store.write, members]

/-- The member of a key shows what stands under it. -/
theorem member_congr {key : String} (same : store.get? key = other.get? key) (flat : Bool) :
    member store flat key = member other flat key := by
  rw [member, member, slot, slot, same]

/-! ## Stores -/

/-- A store is read from its text as its selected part, in ascending order of the keys, and what is
read has the same text, with or without the selection. -/
theorem write_stable (h : Holds Entry.Whole store) (indent : Option Int)
    (selection : Option (List String)) (source : String) :
    ∃ text again, Store.write store (some (.ofIndent indent)) false selection = .ok text ∧
      Store.read source text.toList = .ok again ∧
      again.keys.Pairwise (· < ·) ∧
      (∀ key slot, again.get? key = some slot ↔
        (∀ keys ∈ selection, key ∈ keys) ∧ store.get? key = some slot) ∧
      ∀ second ∈ [none, selection],
        Store.write again (some (.ofIndent indent)) false second = .ok text := by
  have separate : Holds Entry.Separate store := fun key slot found => by
    obtain ⟨entry, same, whole⟩ := h key slot found
    exact ⟨entry, same, whole.separate⟩
  obtain ⟨text, again, wrote, -, readBack, keys, kept⟩ :=
    read_text separate (Layout.blank_ofIndent indent) false selection source
  have same : ∀ key ∈ writtenKeys store selection, store.get? key = again.get? key := by
    intro key there
    obtain ⟨slot, found⟩ := (Keyed.mem_keys_iff store).mp (mem_writtenKeys.mp there).1
    obtain ⟨entry, rfl, whole⟩ := h key slot found
    rw [kept, if_pos there, found]
    show some (Slot.entry entry) = some (.entry entry.reread)
    rw [whole.faithful.reread]
  refine ⟨text, again, wrote, readBack, ?_, fun key slot => ?_, fun second either => ?_⟩
  · rw [keys]
    exact pairwise_writtenKeys store selection
  · by_cases there : key ∈ writtenKeys store selection
    · rw [same key there]
      exact (and_iff_right (mem_writtenKeys.mp there).2).symm
    · rw [kept, if_neg there]
      refine ⟨nofun, fun ⟨selected, found⟩ => absurd ?_ there⟩
      exact mem_writtenKeys.mpr ⟨(Keyed.mem_keys_iff store).mpr ⟨slot, found⟩, selected⟩
  · have selected : writtenKeys store selection = writtenKeys again second := by
      refine writtenKeys_congr fun key => ?_
      have left : key ∈ writtenKeys again second ↔
          key ∈ again.keys ∧ ∀ keys ∈ second, key ∈ keys := mem_writtenKeys
      rw [left, keys]
      refine ⟨fun there => ⟨there, ?_⟩, And.left⟩
      rcases List.mem_pair.mp either with rfl | rfl
      · exact nofun
      · exact (mem_writtenKeys.mp there).2
    rw [← wrote, write_congr selected fun key there => member_congr (same key there) false]

/-- A store of two keys, one of them with a note of its own. -/
def noted : Store :=
  Keyed.ofList [
    ("b", .entry ⟨"say \"x\"", ["f.html"],
      [("note", .object [("n", .int (-3)), ("all", .array [.null, .bool true, .object []])])]⟩),
    ("a", .entry (.ofText "y"))]

theorem write_stable_noted :
    Holds Entry.Whole noted ∧
      ∃ text again,
        Store.write noted (some (.ofIndent (some 2))) false (some ["b", "c"]) = .ok text ∧
        Store.read "" text.toList = .ok again ∧
        (∀ key slot, again.get? key = some slot ↔
          (∀ keys ∈ some ["b", "c"], key ∈ keys) ∧ noted.get? key = some slot) ∧
        Store.write again (some (.ofIndent (some 2))) false none = .ok text := by
  have whole : Holds Entry.Whole noted := by
    intro key slot found
    rw [noted, Keyed.get?_ofList (by decide), Keyed.lookup_eq_some_iff (by decide)] at found
    rcases List.mem_pair.mp found with same | same
    · cases same
      refine ⟨_, rfl, by simp [Entry.Separate, Entry.ownFields], by decide,
        .cons _ (.object (by decide) ?_) .nil⟩
      exact .cons _ (.int _) (.cons _ (.array (.cons .null (.cons (.bool _)
        (.cons (.object (by decide) .nil) .nil)))) .nil)
    · cases same
      exact ⟨_, rfl, by simp [Entry.Separate, Entry.ofText], by decide, .nil⟩
  obtain ⟨text, again, wrote, readBack, -, kept, stable⟩ :=
    write_stable whole (some 2) (some ["b", "c"]) ""
  exact ⟨whole, text, again, wrote, readBack, kept, stable none (by decide)⟩

/-! ## Entries of stores that were read -/

theorem Entry.faithful_of_ofJson {value : Value} {entry : Entry} (h : value.Faithful)
    (shaped : Entry.ofJson value = .ok entry) : entry.Faithful := by
  have separate := Entry.separate_of_ofJson shaped
  cases h with
  | text s =>
      cases shaped
      exact ⟨separate, List.nodup_nil, nofun⟩
  | @object members distinct all =>
      rw [Entry.ofJson] at shaped
      obtain ⟨files, -, same⟩ := exists_bind_eq_ok shaped
      cases same
      refine ⟨separate, distinct.sublist (List.filter_sublist.map _), fun field there => ?_⟩
      exact all field (List.mem_filter.mp there).1
  | null | bool _ | int _ | real _ | array _ => cases shaped

/-- A store that is read holds entries that are written and read as themselves. -/
theorem faithful_of_read {source : String} {text : List Char} {store : Store}
    (h : Store.read source text = .ok store) : Holds Entry.Faithful store := by
  obtain ⟨value, found, isStore⟩ := read_eq_ok.mp h
  refine holds_of_ofJson (fun members same member there entry shaped => ?_) isStore
  subst same
  cases Json.faithful_of_read found with
  | object _ all => exact Entry.faithful_of_ofJson (all member there) shaped

theorem Entry.Faithful.settled {entry : Entry} (h : entry.Faithful) : entry.settled.Faithful :=
  ⟨h.separate, h.distinct, h.all⟩

theorem Entry.Faithful.absorb {entry : Entry} (h : entry.Faithful) (incoming : Entry) :
    (entry.absorb incoming false).Faithful :=
  ⟨h.separate, h.distinct, h.all⟩

theorem Entry.faithful_ofText (text : String) : (Entry.ofText text).Faithful :=
  ⟨nofun, List.nodup_nil, nofun⟩

/-- What is written of an entry is read as it is. -/
theorem Entry.Faithful.reread_kept {entry : Entry} (h : entry.Faithful) (flat : Bool) :
    (entry.kept flat).reread = entry.kept flat := by
  cases flat with
  | true => exact (Entry.faithful_ofText entry.value).reread
  | false => exact h.reread

/-! ## Taking in what is there -/

theorem foldl_addNew_of_subset {known : List String} {incoming : List String}
    (inside : ∀ file ∈ incoming, file ∈ known) : incoming.foldl addNew known = known := by
  induction incoming with
  | nil => rfl
  | cons file rest ih =>
      have added : addNew known file = known := by
        rw [addNew, if_pos (List.contains_iff_mem.mpr (inside file List.mem_cons_self))]
      rw [List.foldl_cons, added, ih fun other there => inside other (List.mem_cons_of_mem _ there)]

/-- An entry with sorted files is not changed by one that has no file beyond them. -/
theorem Entry.absorb_again {entry incoming : Entry} (sorted : entry.files.Pairwise (· ≤ ·))
    (inside : ∀ file ∈ incoming.files, file ∈ entry.files) :
    entry.absorb incoming false = entry := by
  have files : (if entry.files.isEmpty then distinct incoming.files
      else incoming.files.foldl addNew entry.files) = entry.files := by
    split
    · next none =>
      have empty := List.isEmpty_iff.mp none
      rw [empty] at inside ⊢
      rw [List.eq_nil_iff_forall_not_mem.mpr fun file there => List.not_mem_nil (inside file there)]
      rfl
    · exact foldl_addNew_of_subset inside
  rw [Entry.absorb, files, Keyed.ascending_of_pairwise sorted]
  rfl

/-- Two working sets have the same keys, and the same files under each. -/
def Alike (one two : Store) : Prop :=
  ∀ key, (one.get? key).map (fun slot => slot.toEntry.files) =
    (two.get? key).map fun slot => slot.toEntry.files

variable {working working' : Store}

theorem Alike.known (h : Alike working working') {key : String} {slot : Slot}
    (found : working'.get? key = some slot) :
    ∃ other, working.get? key = some other ∧ other.toEntry.files = slot.toEntry.files := by
  have same := h key
  rw [found] at same
  exact Option.map_eq_some_iff.mp same

theorem Alike.keys (h : Alike working working') (key : String) :
    key ∈ working'.keys ↔ key ∈ working.keys := by
  rw [Keyed.mem_keys_iff, Keyed.mem_keys_iff, ← Option.isSome_iff_exists,
    ← Option.isSome_iff_exists, ← Option.isSome_map (f := fun slot : Slot => slot.toEntry.files),
    ← h key, Option.isSome_map]

/-- What has come for a key has left its files there, and they are sorted. -/
theorem files_merged (before : Option Slot) (incoming : Entry) :
    (merged before incoming).files.Pairwise (· ≤ ·) ∧
      ∀ file ∈ incoming.files, file ∈ (merged before incoming).files := by
  cases before with
  | some slot =>
      exact ⟨Keyed.pairwise_ascending _, fun file there =>
        Entry.mem_files_absorb.mpr (Or.inr there)⟩
  | none =>
      exact ⟨Keyed.pairwise_ascending _, fun file there =>
        Keyed.mem_ascending.mpr (mem_distinct.mpr there)⟩

/-! ## Writing it again -/

/-- A store that has taken a working set in was written, and what was read of the text takes a set
alike in. It is written as the same text. -/
theorem write_again {old again : Store} {flat purge : Bool}
    (held : Holds Entry.Faithful (extendAll old (entries working) false))
    (alike : Alike working working')
    (kept : ∀ key, again.get? key =
      if key ∈ writtenKeys (extendAll old (entries working) false)
          (if purge then some working.keys else none) then
        ((extendAll old (entries working) false).get? key).map fun slot =>
          .entry (slot.toEntry.kept flat).reread
      else none) (layout : Option Layout) :
    Store.write (extendAll again (entries working') false) layout flat
        (if purge then some working'.keys else none) =
      Store.write (extendAll old (entries working) false) layout flat
        (if purge then some working.keys else none) := by
  have known : ∀ key, key ∈ again.keys ↔ key ∈ writtenKeys (extendAll old (entries working) false)
      (if purge then some working.keys else none) := by
    intro key
    rw [Keyed.mem_keys_iff, kept, ← Option.isSome_iff_exists]
    by_cases there : key ∈ writtenKeys (extendAll old (entries working) false)
        (if purge then some working.keys else none)
    · obtain ⟨slot, found⟩ := (Keyed.mem_keys_iff _).mp (mem_writtenKeys.mp there).1
      rw [if_pos there, found]
      simp [there]
    · rw [if_neg there]
      simp [there]
  have keys : ∀ key, key ∈ writtenKeys (extendAll again (entries working') false)
        (if purge then some working'.keys else none) ↔
      key ∈ writtenKeys (extendAll old (entries working) false)
        (if purge then some working.keys else none) := by
    intro key
    rw [mem_writtenKeys_extended, known, mem_writtenKeys_extended, alike.keys]
    tauto
  refine write_congr (writtenKeys_congr keys) (fun key there => ?_) layout
  have there := (keys key).mp there
  obtain ⟨slot, found⟩ := (Keyed.mem_keys_iff _).mp (mem_writtenKeys.mp there).1
  obtain ⟨entry, rfl, faithful⟩ := held key slot found
  have before : again.get? key = some (.entry (entry.kept flat)) := by
    rw [kept, if_pos there, found]
    exact congrArg (fun entry => some (Slot.entry entry)) (faithful.reread_kept flat)
  rw [member_of_get? found]
  have after := get?_extendAll_entries again working' key
  rw [before] at after
  cases comes : working'.get? key with
  | none =>
      rw [comes] at after
      rw [member_of_get? after]
      cases flat <;> rfl
  | some incoming =>
      rw [comes] at after
      rw [member_of_get? after]
      cases flat with
      | true => rfl
      | false =>
          -- the entry was made when the first set came, and has its files since
          obtain ⟨other, came, files⟩ := alike.known comes
          rw [get?_extendAll_entries, came] at found
          obtain ⟨sorted, inside⟩ := files_merged (old.get? key) other.toEntry
          rw [files] at inside
          have same : Entry.absorb entry incoming.toEntry false = entry := by
            cases found
            exact Entry.absorb_again sorted inside
          exact congrArg (fun entry => Except.ok (key, Entry.shape entry false)) same

end MessageCatalog.Store
