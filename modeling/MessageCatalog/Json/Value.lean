import MessageCatalog.Number.Shortest
import MessageCatalog.Text.Quoted

/-!
# MessageCatalog.Json.Value -- JSON values

Whole numbers of any size are kept apart from numbers with a fraction or an exponent. The members of
an object keep the order in which their names first came; a name that comes again replaces the
value.
-/

namespace MessageCatalog.Json

open MessageCatalog.Number MessageCatalog.Text

/-- A JSON value. -/
inductive Value where
  | null
  | bool (b : Bool)
  | int (n : Int)
  | real (x : Double)
  | text (s : String)
  | array (items : List Value)
  | object (members : List (String × Value))
  deriving Repr, Inhabited

/-- The members of an object, in order. -/
abbrev Members := List (String × Value)

/-- The value of a name. -/
def Members.get? (members : Members) (name : String) : Option Value := members.lookup name

/-- Sets a name: in its place when it is there already, else at the end. -/
def Members.set : Members → String → Value → Members
  | [], name, value => [(name, value)]
  | (n, v) :: rest, name, value =>
    if n == name then (n, value) :: rest else (n, v) :: Members.set rest name value

/-- The members in the order given, the last value of each name at the place of its first. -/
def Members.ofList (pairs : List (String × Value)) : Members :=
  pairs.foldl (fun members (name, value) => members.set name value) []

namespace Value

/-- A member of an object, `none` for a value that is no object. -/
def member? : Value → String → Option Value
  | .object members, name => Members.get? members name
  | _, _ => none

/-! ## Display

The text that stands for a value inside a sentence. Texts inside arrays and objects are quoted. -/

/-- The spellings of numbers without digits in a display. -/
def displayNames : NumberNames := ⟨"nan", "inf"⟩

mutual
/-- A value as it is shown inside another. -/
def quotedDisplay : Value → String
  | .null => "None"
  | .bool b => if b then "True" else "False"
  | .int n => toString n
  | .real x => x.render displayNames
  | .text s => String.ofList (quoted s.toList)
  | .array items => "[" ++ String.intercalate ", " (quotedItems items) ++ "]"
  | .object members => "\x7b" ++ String.intercalate ", " (quotedMembers members) ++ "\x7d"

/-- The items of an array as they are shown. -/
def quotedItems : List Value → List String
  | [] => []
  | v :: rest => quotedDisplay v :: quotedItems rest

/-- The members of an object as they are shown. -/
def quotedMembers : List (String × Value) → List String
  | [] => []
  | (name, v) :: rest =>
    (String.ofList (quoted name.toList) ++ ": " ++ quotedDisplay v) :: quotedMembers rest
end

/-- A value on its own: a text is itself, all else is as inside another value. -/
def display : Value → String
  | .text s => s
  | v => quotedDisplay v

/-- Whether a value counts as present: not null, false, zero or empty. -/
def isTruthy : Value → Bool
  | .null => false
  | .bool b => b
  | .int n => n != 0
  | .real x => !x.isZero
  | .text s => !s.isEmpty
  | .array items => !items.isEmpty
  | .object members => !members.isEmpty

end Value

end MessageCatalog.Json
