import MessageCatalog.Json.Reader
import MessageCatalog.Text.Search
import MessageCatalog.Keyed

/-!
# MessageCatalog.Store.Entry -- one message of a store

An entry holds the localized text of a message, the source files that it was seen in, and whatever
else its file says about it. On disk it is a text alone or an object; both are read as an entry.
-/

namespace MessageCatalog.Store

open MessageCatalog.Json MessageCatalog.Text

/-- A message with its localized text. -/
structure Entry where
  value : String
  files : List String
  /-- Further fields, kept as they are. -/
  extra : Members
  deriving Repr, Inhabited

/-- Why a text holds no store. -/
inductive FormatError where
  | notObject
  | invalidEntry (value : Value)
  | invalidJson (source : String) (error : ReadError)
  deriving Repr

/-- The wording of a format error. -/
def FormatError.message : FormatError → String
  | .notObject => "Message store must be a JSON object"
  | .invalidEntry value => "Invalid message entry: " ++ value.quotedDisplay
  | .invalidJson source error => "Invalid JSON in " ++ source ++ ": " ++ error.message

/-- What can go wrong with a store. -/
inductive Fault where
  | format (error : FormatError)
  /-- A value of a kind that has no items stands where a list does. -/
  | notIterable
  /-- A text holds a surrogate that stands alone. It is neither a text of characters nor a fault of
  the format, and nothing that holds it can be written. -/
  | loneSurrogate
  /-- A bare text is asked for what only an entry has. -/
  | bareText
  | missingKey
  /-- What is asked for as a layout can be none. -/
  | noLayout
  deriving Repr

namespace Entry

/-- The entry of a bare text. -/
def ofText (value : String) : Entry := ⟨value, [], []⟩

/-- The files that a field lists: one, several, or none when the field is absent or empty. -/
def filesOf : Option Value → Except Fault (List String)
  | none => .ok []
  | some value =>
    if !value.isTruthy then .ok []
    else
      match value with
      | .text file => .ok [file]
      | .array items => .ok (items.map Value.display)
      | .object members => .ok (members.map Prod.fst)
      | _ => .error .notIterable

/-- The localized text that a field holds. -/
def valueOf : Option Value → String
  | none => ""
  | some .null => ""
  | some value => value.display

/-- The names of the fields that are not extra. -/
def ownFields : List String := ["value", "files"]

/-- Reads either form of an entry. -/
def ofJson : Value → Except Fault Entry
  | .text value => .ok (ofText value)
  | .object members => do
    let files ← filesOf (Members.get? members "files")
    return ⟨valueOf (Members.get? members "value"), files,
      members.filter fun (name, _) => !ownFields.contains name⟩
  | value => .error (.format (.invalidEntry value))

/-- The object that writes an entry. -/
def toJson (entry : Entry) : Value :=
  .object (("value", .text entry.value) :: ("files", .array (entry.files.map .text)) :: entry.extra)

/-- A field by name; a name that the entry does not have gives null. -/
def field (entry : Entry) (name : String) : Value :=
  if name == "value" then .text entry.value
  else if name == "files" then .array (entry.files.map .text)
  else (Members.get? entry.extra name).getD .null

/-- An entry that comes for the first time: its files sorted, each once. -/
def settled (entry : Entry) : Entry :=
  { entry with files := Keyed.ascending (distinct entry.files) }

/-- An entry after another for the same key has come: the files of both, sorted. The value is
replaced in an update only. -/
def absorb (entry incoming : Entry) (update : Bool) : Entry :=
  let files :=
    if entry.files.isEmpty then distinct incoming.files
    else incoming.files.foldl addNew entry.files
  { entry with
    value := if update then incoming.value else entry.value
    files := Keyed.ascending files }

end Entry

end MessageCatalog.Store
