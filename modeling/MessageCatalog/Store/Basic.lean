import MessageCatalog.Json.Writer
import MessageCatalog.Store.Entry

/-!
# MessageCatalog.Store.Basic -- the messages of one locale

A store maps keys, the texts of the source language, to entries. It keeps the order in which the
keys came and writes them sorted. A bare text may be put under a key; merging turns it into an
entry, and until then nothing that only an entry has can be asked of it.
-/

namespace MessageCatalog

open MessageCatalog.Json

namespace Store

/-- What stands under a key. -/
inductive Slot where
  | entry (e : Entry)
  | bare (text : String)
  deriving Repr, Inhabited

/-- The entry of a slot. -/
def Slot.toEntry : Slot → Entry
  | .entry e => e
  | .bare text => Entry.ofText text

/-- The entry of a slot that holds one. -/
def Slot.ownEntry : Slot → Except Fault Entry
  | .entry e => .ok e
  | .bare _ => .error .bareText

end Store

/-- The messages of one locale. -/
abbrev Store := Keyed Store.Slot

namespace Store

/-! ## Single keys -/

/-- What stands under a key. -/
def slot (store : Store) (key : String) : Except Fault Slot :=
  match store.get? key with
  | some slot => .ok slot
  | none => .error .missingKey

/-- Puts an entry under a key. -/
def put (store : Store) (key : String) (entry : Entry) : Store := store.set key (.entry entry)

/-- Puts a bare text under a key. -/
def putBare (store : Store) (key text : String) : Store := store.set key (.bare text)

/-- Takes a key out. -/
def remove (store : Store) (key : String) : Except Fault Store :=
  if store.contains key then .ok (store.erase key) else .error .missingKey

/-- A field of the entry under a key. -/
def field (store : Store) (key name : String) : Except Fault Value := do
  return (← (← slot store key).ownEntry).field name

/-- Puts a copy of the entry under one key under another. -/
def copy (store : Store) (key target : String) : Except Fault Store := do
  return put store target (← (← slot store key).ownEntry)

/-! ## Merging -/

/-- Merges an entry. A new key is put, except in an update, which changes known keys only. -/
def extend (store : Store) (key : String) (incoming : Entry) (update : Bool) : Store :=
  match store.get? key with
  | some slot => put store key (slot.toEntry.absorb incoming update)
  | none => if update then store else put store key incoming.settled

/-- Merges entries in order. -/
def extendAll (store : Store) (entries : List (String × Entry)) (update : Bool) : Store :=
  entries.foldl (fun store (key, entry) => extend store key entry update) store

/-- The entries of a store, a bare text as the entry that it stands for. -/
def entries (store : Store) : List (String × Entry) :=
  store.pairs.map fun (key, slot) => (key, slot.toEntry)

/-- Merges the members of an object as entries, in order. The first that is no entry ends the merge;
those before it stay. -/
def extendMembers (update : Bool) : Store → List (String × Value) → Store × Except Fault Unit
  | store, [] => (store, .ok ())
  | store, (key, value) :: rest =>
    match Entry.ofJson value with
    | .ok entry => extendMembers update (extend store key entry update) rest
    | .error fault => (store, .error fault)

/-! ## Reading -/

/-- Reads the members of an object as entries. -/
def entriesOf : List (String × Value) → Except Fault (List (String × Entry))
  | [] => .ok []
  | (key, value) :: rest => do
    let entry ← Entry.ofJson value
    return (key, entry) :: (← entriesOf rest)

/-- The store of some entries. -/
def ofEntries (entries : List (String × Entry)) : Store :=
  Keyed.ofList (entries.map fun (key, entry) => (key, .entry entry))

/-- Reads a store from an object. -/
def ofJson : Value → Except Fault Store
  | .object members => do return ofEntries (← entriesOf members)
  | _ => .error (.format .notObject)

/-- Reads a store from a text that came from some source. -/
def read (source : String) (text : List Char) : Except Fault Store :=
  match Json.read text with
  | .ok value => ofJson value
  | .error (.malformed error) => .error (.format (.invalidJson source error))
  | .error .loneSurrogate => .error .loneSurrogate

/-! ## Writing -/

/-- What is written under a key: the localized text alone, or the whole entry. -/
def Entry.shape (entry : Entry) (flat : Bool) : Value :=
  if flat then .text entry.value else entry.toJson

/-- The keys that are written: all, or those of a selection that are there, sorted. -/
def writtenKeys (store : Store) (selection : Option (List String)) : List String :=
  match selection with
  | none => store.sortedKeys
  | some keys => Keyed.ascending (Text.distinct (keys.filter store.contains))

/-- The members of the object that writes a store. -/
def toMembers (store : Store) (flat : Bool) (selection : Option (List String)) :
    Except Fault Members :=
  (writtenKeys store selection).mapM fun key => do
    return (key, (← (← slot store key).ownEntry).shape flat)

/-- A store as a text in a layout, with a line end behind it. -/
def write (store : Store) (layout : Option Layout) (flat : Bool)
    (selection : Option (List String)) : Except Fault String := do
  let members ← toMembers store flat selection
  match layout with
  | some layout => return Json.write layout (.object members) ++ "\n"
  | none => throw .noLayout

end Store

end MessageCatalog
