import MessageCatalog.Script.Literal
import MessageCatalog.Text.Cursor

/-!
# MessageCatalog.Script.Walk -- string literals read with a cursor

The rules of string literals over a cursor. A piece gives the code points that it denotes and the
cursor behind it. The code points are joined to characters at the end, and only where an escape may
have brought in a surrogate.
-/

namespace MessageCatalog.Script

open MessageCatalog.Text

/-- Reports a fault at a cursor. -/
def faultAt {α : Type} (cause : LiteralCause) (c : Cursor) : Walk LiteralError α :=
  .error (.fault (.malformed cause c.position))

/-! ## Escapes -/

/-- Walks over exactly `count` hexadecimal digits. -/
def hexAt (count : Nat) (c : Cursor) : Walk LiteralError (Nat × Cursor) :=
  let digits := c.sliceAhead count
  if digits.length < count || !digits.all isHexDigit then faultAt (.invalidHex count) c
  else .ok (numeral 16 digits, c.advance count)

/-- The digits between the brace under a cursor and the next closing one. -/
def bracedDigits (c : Cursor) : List Char :=
  if c.ahead.contains '\x7d' then (c.ahead.drop 1).takeWhile (· != '\x7d') else []

/-- Walks over a code unit or a code point, from behind the letter of its escape. -/
def unicodeAt (c : Cursor) : Walk LiteralError (Nat × Cursor) :=
  if c.peek? 0 == some '\x7b' then
    let digits := bracedDigits c
    if digits.isEmpty || !digits.all isHexDigit then faultAt .invalidCodePoint c
    else if 0x10ffff < numeral 16 digits then faultAt (.codePointOutOfRange digits) c
    else .ok (numeral 16 digits, c.advance (digits.length + 2))
  else hexAt 4 c

/-- Walks over at most `more` octal digits behind some `digits`. -/
def octalsAt : (more : Nat) → (digits : List Char) → Cursor →
    Walk LiteralError (List Char × Cursor)
  | 0, digits, c => .ok (digits, c)
  | more + 1, digits, c =>
    if (c.peek? 0).any isOctalDigit then do
      octalsAt more (digits ++ [← c.look]) (c.advance 1)
    else .ok (digits, c)

/-- Walks over an octal escape from its first digit: three digits, or two when the first is above
three. -/
def octalAt (c : Cursor) : Walk LiteralError (Nat × Cursor) := do
  let first ← c.look
  let (digits, behind) ← octalsAt (if first ≤ '3' then 2 else 1) [first] (c.advance 1)
  return (numeral 8 digits, behind)

/-- Walks over an escape from behind its backslash. -/
def escapeAt (c : Cursor) : Walk LiteralError (List Nat × Cursor) := do
  if c.atEnd then faultAt .unexpectedEnd c
  else
    let char ← c.look
    match controlEscape? char with
    | some control => return ([control.toNat], c.advance 1)
    | none =>
      if char == '\r' then
        let behind := c.advance 1
        return ([], if behind.peek? 0 == some '\n' then behind.advance 1 else behind)
      else if isLineTerminator char then return ([], c.advance 1)
      else if char == '0' && !(c.peek? 1).any isAsciiDigit then return ([0], c.advance 1)
      else if isOctalDigit char then
        let (code, behind) ← octalAt c
        return ([code], behind)
      else if char == 'x' then
        let (code, behind) ← hexAt 2 (c.advance 1)
        return ([code], behind)
      else if char == 'u' then
        let (code, behind) ← unicodeAt (c.advance 1)
        return ([code], behind)
      else return ([char.toNat], c.advance 1)

/-! ## Literals -/

/-- Walks over the content of a literal and its closing quote. The pieces in front of the cursor
denote `codes`, and `escaped` says whether one of them is an escape. -/
def contentAt (quote : Char) : (steps : Nat) → Cursor → (codes : List Nat) → (escaped : Bool) →
    Walk LiteralError ((List Nat × Bool) × Cursor)
  | 0, _, _, _ => .error .outOfSteps
  | steps + 1, c, codes, escaped =>
    if c.atEnd then faultAt .unterminated c
    else do
      let char ← c.look
      if char == quote then return ((codes, escaped), c.advance 1)
      else if char == '\\' then
        let (more, behind) ← escapeAt (c.advance 1)
        contentAt quote steps behind (codes ++ more) true
      else if char == '\n' || char == '\r' then faultAt .lineBreak c
      else contentAt quote steps (c.advance 1) (codes ++ [char.toNat]) escaped

/-- Ends a walk behind a closing quote. The code points of content without an escape are those of
characters. -/
def closeAt (codes : List Nat) (escaped : Bool) (c : Cursor) : Walk LiteralError (List Char) :=
  if !c.atEnd then faultAt .trailingText c
  else if escaped then
    match joinSurrogates? codes with
    | some text => .ok text
    | none => .error (.fault .loneSurrogate)
  else .ok (codes.map Char.ofNat)

/-- Walks over a token, and gives the text that it denotes. -/
def decodeAt (token : List Char) : Walk LiteralError (List Char) := do
  let c := Cursor.ofText token
  if ← c.sees fun char => char == '"' || char == '\'' then
    let quote ← c.look
    let ((codes, escaped), c) ← contentAt quote token.length (c.advance 1) [] false
    closeAt codes escaped c
  else faultAt .expectedQuote c

end MessageCatalog.Script
