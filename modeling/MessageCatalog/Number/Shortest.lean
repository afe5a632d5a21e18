import MessageCatalog.Number.Double

/-!
# MessageCatalog.Number.Shortest -- the fewest digits that read back

A finite number is written with the fewest significant digits that round to it again, and among the
decimals with that many digits with the nearest one. The candidates of each length are the two
neighbours of the number on the grid of decimals of that length. All tests are exact.
-/

namespace MessageCatalog.Number

/-- The decimal `0.d₁d₂… * 10 ^ point` with the significant digits `digits`. -/
structure Decimal where
  digits : Nat
  point : Int
  deriving DecidableEq, Repr

/-- A positive rational number. -/
structure Fraction where
  num : Nat
  den : Nat
  deriving DecidableEq, Repr

namespace Fraction

/-- `n * 2 ^ exponent`. -/
def ofBinary (n : Nat) (exponent : Int) : Fraction :=
  if 0 ≤ exponent then ⟨n * Nat.pow 2 exponent.toNat, 1⟩ else ⟨n, Nat.pow 2 (-exponent).toNat⟩

/-- `n * 10 ^ exponent`. -/
def ofDecimal (n : Nat) (exponent : Int) : Fraction :=
  if 0 ≤ exponent then ⟨n * Nat.pow 10 exponent.toNat, 1⟩ else ⟨n, Nat.pow 10 (-exponent).toNat⟩

/-- Whether one fraction is less than another. -/
def lt (a b : Fraction) : Bool := a.num * b.den < b.num * a.den

/-- Whether one fraction is at most another. -/
def le (a b : Fraction) : Bool := a.num * b.den ≤ b.num * a.den

/-- The natural part of `a / b`. -/
def floorDiv (a b : Fraction) : Nat := (a.num * b.den) / (a.den * b.num)

/-- The distance of two fractions. -/
def distance (a b : Fraction) : Fraction :=
  let x := a.num * b.den
  let y := b.num * a.den
  ⟨(x - y) + (y - x), a.den * b.den⟩

end Fraction

namespace Double

/-- The number of digits before the decimal point of a positive fraction: the least `p` from `start`
on with the fraction below `10 ^ p`, searched upward for `fuel` steps. -/
def pointOf (value : Fraction) : (fuel : Nat) → (start : Int) → Int
  | 0, start => start
  | fuel + 1, start =>
    if value.lt (Fraction.ofDecimal 1 start) then start else pointOf value fuel (start + 1)

/-- Whether a decimal rounds to `significand * 2 ^ exponent`: it lies between the midpoints to the
neighbours, which belong to the interval when the significand is even. -/
def roundsTo (significand : Nat) (exponent : Int) (candidate : Fraction) : Bool :=
  let high := Fraction.ofBinary (2 * significand + 1) (exponent - 1)
  let low :=
    if significand == Nat.pow 2 52 && leastExponent < exponent then
      Fraction.ofBinary (4 * significand - 1) (exponent - 2)
    else Fraction.ofBinary (2 * significand - 1) (exponent - 1)
  if significand % 2 == 0 then low.le candidate && candidate.le high
  else low.lt candidate && candidate.lt high

/-- The best decimal with some number of digits, if one of that length reads back. -/
def withDigits (significand : Nat) (exponent : Int) (value : Fraction) (point : Int)
    (count : Nat) : Option Nat :=
  let unit := Fraction.ofDecimal 1 (point - count)
  let below := value.floorDiv unit
  let decimal (n : Nat) : Fraction := Fraction.ofDecimal n (point - count)
  let lowFits := roundsTo significand exponent (decimal below)
  let highFits := roundsTo significand exponent (decimal (below + 1))
  if lowFits && highFits then
    let toLow := (decimal below).distance value
    let toHigh := (decimal (below + 1)).distance value
    if toLow.lt toHigh then some below
    else if toHigh.lt toLow then some (below + 1)
    else if below % 2 == 0 then some below else some (below + 1)
  else if lowFits then some below
  else if highFits then some (below + 1)
  else none

/-- The shortest decimal of a positive number. -/
def shortest (significand : Nat) (exponent : Int) : Decimal :=
  let value := Fraction.ofBinary significand exponent
  let start : Int := ((Nat.log2 significand : Int) + exponent) * 30103 / 100000 - 1
  let point := pointOf value 6 start
  match (List.range 17).findSome? fun i =>
      (withDigits significand exponent value point (i + 1)).map fun n => (n, i + 1) with
  | some (n, count) =>
    if n == Nat.pow 10 count then ⟨1, point + 1⟩ else ⟨n, point⟩
  | none => ⟨significand, point⟩

end Double

/-! ## Written form -/

/-- The digits of a natural without the zeros at its end. -/
def significantDigits (n : Nat) : List Char :=
  ((Nat.toDigits 10 n).reverse.dropWhile (· == '0')).reverse

/-- A decimal written out: positional when the point falls at most sixteen places to the right and
at most four zeros to the left of the digits, with an exponent of at least two digits otherwise. A
whole number keeps one zero after its point. -/
def Decimal.render (d : Decimal) : List Char :=
  let digits := significantDigits d.digits
  let count : Int := digits.length
  if -4 < d.point && d.point ≤ 16 then
    if d.point ≤ 0 then '0' :: '.' :: List.replicate (-d.point).toNat '0' ++ digits
    else if count ≤ d.point then
      digits ++ List.replicate (d.point - count).toNat '0' ++ ['.', '0']
    else digits.take d.point.toNat ++ '.' :: digits.drop d.point.toNat
  else
    let exponent := d.point - 1
    let mantissa := match digits with
      | [] => ['0']
      | [first] => [first]
      | first :: others => first :: '.' :: others
    let size := Nat.toDigits 10 exponent.natAbs
    let padded := if size.length < 2 then '0' :: size else size
    mantissa ++ ('e' :: (if exponent < 0 then '-' else '+') :: padded)

/-- The spellings of the numbers that have no digits. -/
structure NumberNames where
  notANumber : String
  infinity : String
  deriving DecidableEq, Repr

/-- A number as text. -/
def Double.render (names : NumberNames) : Double → String
  | .nan => names.notANumber
  | .infinite negative => (if negative then "-" else "") ++ names.infinity
  | .finite negative significand exponent =>
    let magnitude :=
      if significand == 0 then ['0', '.', '0'] else (Double.shortest significand exponent).render
    String.ofList (if negative then '-' :: magnitude else magnitude)

end MessageCatalog.Number
