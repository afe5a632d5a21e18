import MessageCatalog.Json.Value
import MessageCatalog.Text.Search

/-!
# MessageCatalog.Json.Writer -- values to JSON text

A text is written on one line, or with one item a line when an indentation is given. Characters
above U+007E are written as they are; the quote, the backslash and the control characters are
escaped.
-/

namespace MessageCatalog.Json

open MessageCatalog.Number MessageCatalog.Text

/-- How a value is laid out: on one line, or one item a line behind a margin that is repeated for
every level. -/
inductive Layout where
  | line
  | block (margin : String)
  deriving DecidableEq, Repr, Inhabited

/-- A block whose margin is some spaces. -/
def Layout.spaces (count : Int) : Layout :=
  .block (String.ofList (List.replicate count.toNat ' '))

/-- The spellings of numbers without digits in JSON text. -/
def jsonNames : NumberNames := ⟨"NaN", "Infinity"⟩

/-- One character inside a quoted text. -/
def escapeChar (c : Char) : List Char :=
  if c == '"' then ['\\', '"']
  else if c == '\\' then ['\\', '\\']
  else if c == '\n' then ['\\', 'n']
  else if c == '\r' then ['\\', 'r']
  else if c == '\t' then ['\\', 't']
  else if c == '\x0c' then ['\\', 'f']
  else if c == '\x08' then ['\\', 'b']
  else if c.toNat < 0x20 then '\\' :: 'u' :: hexNumeral 4 c.toNat
  else [c]

/-- A text as a JSON string. -/
def writeText (s : String) : List Char := '"' :: s.toList.flatMap escapeChar ++ ['"']

/-- The start of a line at some depth. -/
def Layout.newline (layout : Layout) (depth : Nat) : List Char :=
  match layout with
  | .line => []
  | .block margin => '\n' :: (List.replicate depth margin.toList).flatten

/-- What stands between two items at some depth. -/
def Layout.separator (layout : Layout) (depth : Nat) : List Char :=
  match layout with
  | .line => [',', ' ']
  | .block _ => ',' :: layout.newline depth

mutual
/-- A value that is written at some depth. -/
def writeValue (layout : Layout) (depth : Nat) : Value → List Char
  | .null => "null".toList
  | .bool b => (if b then "true" else "false").toList
  | .int n => (toString n).toList
  | .real x => (x.render jsonNames).toList
  | .text s => writeText s
  | .array [] => ['[', ']']
  | .array (v :: rest) =>
    '[' :: (layout.newline (depth + 1) ++ writeValue layout (depth + 1) v ++
      writeItems layout (depth + 1) rest ++ layout.newline depth ++ [']'])
  | .object [] => ['\x7b', '\x7d']
  | .object ((name, v) :: rest) =>
    '\x7b' :: (layout.newline (depth + 1) ++ writeText name ++ [':', ' '] ++
      writeValue layout (depth + 1) v ++ writeMembers layout (depth + 1) rest ++
      layout.newline depth ++ ['\x7d'])

/-- The items after the first, each behind its separator. -/
def writeItems (layout : Layout) (depth : Nat) : List Value → List Char
  | [] => []
  | v :: rest =>
    layout.separator depth ++ writeValue layout depth v ++ writeItems layout depth rest

/-- The members after the first, each behind its separator. -/
def writeMembers (layout : Layout) (depth : Nat) : List (String × Value) → List Char
  | [] => []
  | (name, v) :: rest =>
    layout.separator depth ++ writeText name ++ [':', ' '] ++ writeValue layout depth v ++
      writeMembers layout depth rest
end

/-- A value as a text. -/
def write (layout : Layout) (value : Value) : String :=
  String.ofList (writeValue layout 0 value)

end MessageCatalog.Json
