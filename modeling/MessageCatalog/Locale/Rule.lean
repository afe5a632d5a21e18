/-!
# MessageCatalog.Locale.Rule -- plural rules

A language sorts numbers into a few categories. A rule lists categories with a condition each; the
first condition that holds names the category, and a number for which none holds is in the category
`other`. Rules are data here. They run in a browser, so what is needed of them is their script.
-/

namespace MessageCatalog.Locale

/-! ## Categories -/

/-- The plural categories. -/
inductive Category where
  | zero
  | one
  | two
  | few
  | many
  | other
  deriving DecidableEq, Repr

/-- All categories in the order in which they are listed. -/
def Category.all : List Category := [.zero, .one, .two, .few, .many, .other]

/-- The name of a category. -/
def Category.name : Category → String
  | .zero => "zero"
  | .one => "one"
  | .two => "two"
  | .few => "few"
  | .many => "many"
  | .other => "other"

/-! ## Conditions -/

/-- What a condition looks at. -/
inductive Operand where
  /-- The number itself. -/
  | number
  /-- The part before the decimal point. -/
  | whole
  /-- The digits after the decimal point. A number in a script carries none that would be shown, so
  the operand is always zero there. -/
  | decimals
  /-- The exponent of the compact form. -/
  | exponent
  | remainder (of : Operand) (divisor : Nat)
  deriving DecidableEq, Repr

/-- A condition on a number. -/
inductive Condition where
  /-- The operand is a whole number within one of some inclusive ranges. -/
  | within (operand : Operand) (ranges : List (Nat × Nat))
  | both (first second : Condition)
  | either (first second : Condition)
  | negated (condition : Condition)
  deriving DecidableEq, Repr

/-- The categories of a rule with their conditions, in the order in which they are tried. -/
abbrev Rule := List (Category × Condition)

/-- The rules of a language: for amounts and for places in an order. -/
structure PluralRules where
  cardinal : Rule
  ordinal : Rule
  deriving DecidableEq, Repr

/-- The categories that a rule may name, in their listed order. -/
def Rule.categories (rule : Rule) : List Category :=
  Category.all.filter fun c => c == .other || (rule.map Prod.fst).contains c

/-! ## Script -/

/-- An operand as an expression of the number `n`. -/
def Operand.script : Operand → String
  | .number => "n"
  | .whole => "parseInt(n, 10)"
  | .decimals => "0"
  | .exponent => "e"
  | .remainder of divisor => "(" ++ of.script ++ " % " ++ toString divisor ++ ")"

/-- One range as a comparison. -/
def rangeScript (operand : String) (range : Nat × Nat) : String :=
  if range.1 == range.2 then "(" ++ operand ++ " == " ++ toString range.1 ++ ")"
  else
    "(" ++ operand ++ " >= " ++ toString range.1 ++ " && " ++ operand ++ " <= " ++
      toString range.2 ++ ")"

/-- A condition as an expression. -/
def Condition.script : Condition → String
  | .within operand ranges =>
    let x := operand.script
    "(parseInt(" ++ x ++ ", 10) == " ++ x ++ " && (" ++
      String.intercalate " || " (ranges.map (rangeScript x)) ++ "))"
  | .both a b => "(" ++ a.script ++ " && " ++ b.script ++ ")"
  | .either a b => "(" ++ a.script ++ " || " ++ b.script ++ ")"
  | .negated c => "(!" ++ c.script ++ ")"

/-- A rule as a function from a number to the name of its category. -/
def Rule.script (rule : Rule) : String :=
  "(function(n) \x7b return " ++
    String.join (rule.map fun (category, condition) =>
      condition.script ++ " ? '" ++ category.name ++ "' : ") ++
    "'other'; \x7d)"

end MessageCatalog.Locale
