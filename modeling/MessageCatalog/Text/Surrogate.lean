/-!
# MessageCatalog.Text.Surrogate -- code units to characters

Escapes that name 16-bit code units write a character above U+FFFF as a high and a low surrogate. A
text of code points in which such pairs may occur is joined into characters; a surrogate without its
partner is no character.
-/

namespace MessageCatalog.Text

/-- Whether a code point is a high surrogate. -/
def isHighSurrogate (n : Nat) : Bool := 0xd800 ≤ n && n < 0xdc00

/-- Whether a code point is a low surrogate. -/
def isLowSurrogate (n : Nat) : Bool := 0xdc00 ≤ n && n < 0xe000

/-- The character that a surrogate pair stands for. -/
def joinPair (high low : Nat) : Char :=
  Char.ofNat (0x10000 + (high - 0xd800) * 0x400 + (low - 0xdc00))

/-- Joins surrogate pairs; `lone` says what a surrogate without a partner becomes, if anything. -/
def joinSurrogatesWith (lone : Nat → Option Char) : List Nat → Option (List Char)
  | [] => some []
  | [n] =>
    if isHighSurrogate n || isLowSurrogate n then (lone n).map fun c => [c]
    else some [Char.ofNat n]
  | n :: m :: rest =>
    if isHighSurrogate n && isLowSurrogate m then
      (joinSurrogatesWith lone rest).map (joinPair n m :: ·)
    else if isHighSurrogate n || isLowSurrogate n then
      (lone n).bind fun c => (joinSurrogatesWith lone (m :: rest)).map (c :: ·)
    else (joinSurrogatesWith lone (m :: rest)).map (Char.ofNat n :: ·)

/-- Joins surrogate pairs, and fails when a surrogate stands alone. -/
def joinSurrogates? (codes : List Nat) : Option (List Char) :=
  joinSurrogatesWith (fun _ => none) codes

/-- The character that stands in for a surrogate. -/
def standIn (n : Nat) : Char := Char.ofNat (0xf0000 + (n - 0xd800))

/-- Whether a code point is that of a stand-in. -/
def isStandIn (n : Nat) : Bool := 0xf0000 ≤ n && n < 0xf0800

/-- The code point that a code point stands for where surrogates have stand-ins. -/
def unmasked (n : Nat) : Nat := if isStandIn n then 0xd800 + (n - 0xf0000) else n

end MessageCatalog.Text
