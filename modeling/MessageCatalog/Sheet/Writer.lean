import MessageCatalog.Config.Options
import MessageCatalog.Store.Basic
import MessageCatalog.Text.Search

/-!
# MessageCatalog.Sheet.Writer -- a store as a table for translators

A table has a row of names and a row for every key, in ascending order. Every field stands between
quotes, and a double quote inside a field is written twice.
-/

namespace MessageCatalog.Sheet

open MessageCatalog.Config MessageCatalog.Json MessageCatalog.Text

/-- The text of a field with its double quotes written twice. -/
def escape (text : String) : String := String.ofList (replaceAll ['"'] ['"', '"'] text.toList)

/-- A row of fields. -/
def writeRow (format : SheetFormat) (fields : List String) : String :=
  String.intercalate format.delimiter
    (fields.map fun text => format.quote ++ escape text ++ format.quote) ++ format.lineEnd

/-- A value as the text of a field: nothing for null, the items of an array with commas between. -/
def fieldText : Value → String
  | .null => ""
  | .array items => String.intercalate "," (items.map Value.display)
  | value => value.display

/-- The row of names for a locale. -/
def header (format : SheetFormat) (locale : String) : List String :=
  format.keyLabel :: locale :: format.extraFields

/-- The row of an entry. -/
def entryRow (format : SheetFormat) (key : String) (entry : Store.Entry) : List String :=
  key :: entry.value :: format.extraFields.map fun name => fieldText (entry.field name)

/-- The rows of a store. -/
def storeRows (format : SheetFormat) (store : Store) (locale : String) : List (List String) :=
  header format locale :: store.sortedKeys.filterMap fun key =>
    (store.get? key).map fun slot => entryRow format key slot.toEntry

/-- The table of a store. -/
def writeStore (format : SheetFormat) (store : Store) (locale : String) : String :=
  String.join ((storeRows format store locale).map (writeRow format))

end MessageCatalog.Sheet
