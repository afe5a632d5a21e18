/-!
# MessageCatalog.Number.Double -- binary floating point numbers as exact data

A number of the 64-bit binary format is its sign, a natural significand and a power of two. All
arithmetic here is exact arithmetic on naturals: a decimal numeral is rounded to the nearest such
number, a tie going to the even significand.
-/

namespace MessageCatalog.Number

/-- A binary floating point number. A finite one has the magnitude `significand * 2 ^ exponent`. -/
inductive Double where
  | nan
  | infinite (negative : Bool)
  | finite (negative : Bool) (significand : Nat) (exponent : Int)
  deriving DecidableEq, Repr, Inhabited

namespace Double

/-- The significands of the format have this many bits. -/
def precision : Nat := 53

/-- The exponent of the smallest positive number, and of every number with fewer bits than the
precision. -/
def leastExponent : Int := -1074

/-- The exponent of the largest finite numbers. -/
def greatestExponent : Int := 971

/-- Zero of either sign. -/
def zero (negative : Bool) : Double := .finite negative 0 leastExponent

/-- The quotient of two naturals, rounded to the nearest natural, a tie to the even one. -/
def roundDiv (num den : Nat) : Nat :=
  let quotient := num / den
  let twice := 2 * (num % den)
  if twice < den then quotient
  else if den < twice then quotient + 1
  else if quotient % 2 == 0 then quotient else quotient + 1

/-- `num / den` divided by `2 ^ exponent`, as a numerator and a denominator. -/
def scaleDown (num den : Nat) (exponent : Int) : Nat × Nat :=
  if 0 ≤ exponent then (num, den * Nat.pow 2 exponent.toNat)
  else (num * Nat.pow 2 (-exponent).toNat, den)

/-- The number nearest to the positive fraction `num / den`. -/
def ofFraction (negative : Bool) (num den : Nat) : Double :=
  let guess : Int := (Nat.log2 num : Int) - Nat.log2 den - 52
  let (n, d) := scaleDown num den guess
  let fitted := if n / d < Nat.pow 2 52 then guess - 1 else guess
  let exponent := max fitted leastExponent
  let (n, d) := scaleDown num den exponent
  let significand := roundDiv n d
  let (significand, exponent) :=
    if significand == Nat.pow 2 53 then (Nat.pow 2 52, exponent + 1) else (significand, exponent)
  if greatestExponent < exponent then .infinite negative
  else .finite negative significand exponent

/-- The number nearest to `digits * 10 ^ power`. Powers far outside the range of the format are
decided at once. -/
def ofDecimal (negative : Bool) (digits : Nat) (power : Int) : Double :=
  if digits == 0 then zero negative
  else
    let places : Int := (Nat.toDigits 10 digits).length
    if 400 < places + power then .infinite negative
    else if places + power < -400 then zero negative
    else if 0 ≤ power then ofFraction negative (digits * Nat.pow 10 power.toNat) 1
    else ofFraction negative digits (Nat.pow 10 (-power).toNat)

/-- Whether the number is zero, of either sign. -/
def isZero : Double → Bool
  | .finite _ significand _ => significand == 0
  | _ => false

end Double

end MessageCatalog.Number
