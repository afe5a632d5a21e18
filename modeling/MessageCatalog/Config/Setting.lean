import MessageCatalog.Json.Value

/-!
# MessageCatalog.Config.Setting -- the values of a configuration

A configuration holds what its format can write, whether or not an option wants such a value. An
option that is a switch takes any value by whether it is present, and one that is a text takes any
value by how it is shown.
-/

namespace MessageCatalog.Config

open MessageCatalog.Number MessageCatalog.Json

/-- A value of a configuration. -/
inductive Setting where
  | null
  | bool (b : Bool)
  | int (n : Int)
  | real (x : Double)
  | text (s : String)
  /-- A date, a time or both, as it is shown. -/
  | moment (shown : String)
  | array (items : List Setting)
  | table (entries : List (String × Setting))
  deriving Repr, Inhabited

/-- The entries of a table, in order. -/
abbrev Table := List (String × Setting)

namespace Setting

/-! ## JSON -/

mutual
/-- The setting that a JSON value writes. -/
def ofJson : Value → Setting
  | .null => .null
  | .bool b => .bool b
  | .int n => .int n
  | .real x => .real x
  | .text s => .text s
  | .array items => .array (ofItems items)
  | .object members => .table (ofMembers members)

/-- The settings of the items of an array. -/
def ofItems : List Value → List Setting
  | [] => []
  | v :: rest => ofJson v :: ofItems rest

/-- The settings of the members of an object. -/
def ofMembers : List (String × Value) → Table
  | [] => []
  | (name, v) :: rest => (name, ofJson v) :: ofMembers rest
end

mutual
/-- The JSON value of a setting. A moment is its text. -/
def toJson : Setting → Value
  | .null => .null
  | .bool b => .bool b
  | .int n => .int n
  | .real x => .real x
  | .text s => .text s
  | .moment shown => .text shown
  | .array items => .array (toItems items)
  | .table entries => .object (toMembers entries)

/-- The JSON values of settings. -/
def toItems : List Setting → List Value
  | [] => []
  | s :: rest => s.toJson :: toItems rest

/-- The JSON members of entries. -/
def toMembers : Table → List (String × Value)
  | [] => []
  | (name, s) :: rest => (name, s.toJson) :: toMembers rest
end

/-! ## Reading a setting -/

/-- The setting as a text. -/
def shown : Setting → String
  | .moment shown => shown
  | s => s.toJson.display

/-- Whether the setting counts as present: not null, false, zero or empty. -/
def isTruthy : Setting → Bool
  | .moment _ => true
  | s => s.toJson.isTruthy

/-- The items of a setting that can be taken apart: the items of an array, the names of a table, the
characters of a text. -/
def items? : Setting → Option (List Setting)
  | .array items => some items
  | .table entries => some (entries.map fun (name, _) => .text name)
  | .text s => some (s.toList.map fun c => .text (String.ofList [c]))
  | _ => none

/-! ## Equality

Numbers are equal when their values are, whatever their kind; a switch is one or zero. Tables are
equal without regard to order. -/

/-- The whole number that a setting is equal to, if any. -/
def whole? : Setting → Option Int
  | .bool b => some (if b then 1 else 0)
  | .int n => some n
  | .real (.finite negative significand exponent) =>
    let magnitude? : Option Nat :=
      if 0 ≤ exponent then some (significand * Nat.pow 2 exponent.toNat)
      else if significand % Nat.pow 2 (-exponent).toNat == 0 then
        some (significand / Nat.pow 2 (-exponent).toNat)
      else none
    magnitude?.map fun m => if negative then -(m : Int) else m
  | _ => none

mutual
/-- Whether two settings are the same value. -/
def same : Setting → Setting → Bool
  | .null, .null => true
  | .text a, .text b => a == b
  | .moment a, .moment b => a == b
  | .array xs, .array ys => sameItems xs ys
  | .table xs, .table ys => xs.length == ys.length && sameEntries xs ys
  | .real x, .real y => x != .nan && x == y || (x.isZero && y.isZero)
  | a, b =>
    match a.whole?, b.whole? with
    | some m, some n => m == n
    | _, _ => false

/-- Whether two lists have the same values in the same order. -/
def sameItems : List Setting → List Setting → Bool
  | [], [] => true
  | x :: xs, y :: ys => same x y && sameItems xs ys
  | _, _ => false

/-- Whether a table has the same value for every name of some entries. -/
def sameEntries : Table → Table → Bool
  | [], _ => true
  | (name, x) :: rest, ys =>
    (match ys.lookup name with
      | some y => same x y
      | none => false) && sameEntries rest ys
end

end Setting

namespace Table

/-- Sets an entry: in its place when it is there already, else at the end. -/
def set : Table → String → Setting → Table
  | [], name, value => [(name, value)]
  | (n, v) :: rest, name, value =>
    if n == name then (n, value) :: rest else (n, v) :: set rest name value

end Table

end MessageCatalog.Config
