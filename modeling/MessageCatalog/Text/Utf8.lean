/-!
# MessageCatalog.Text.Utf8 -- bytes to text

Well-formed UTF-8: no overlong form, no surrogate, nothing above U+10FFFF. Decoding stops at the
first sequence that is not a character and names its first byte, its offset and what is wrong with
it.
-/

namespace MessageCatalog.Text

/-- Why a byte sequence is not a character. -/
inductive Utf8Fault where
  /-- The byte can never start a character. -/
  | invalidStart
  /-- A later byte of the character is not the continuation that it has to be. -/
  | invalidContinuation
  /-- The bytes end inside a character. -/
  | unexpectedEnd
  deriving DecidableEq, Repr

/-- A sequence that is not a character: where it starts, how many bytes of it could have been one,
and why it is not. -/
structure Utf8Error where
  offset : Nat
  bytes : List UInt8
  fault : Utf8Fault
  deriving DecidableEq, Repr

/-- The continuation bytes that may follow a first byte: how many there are, and the bounds of the
first of them. -/
def continuation? (first : UInt8) : Option (Nat × UInt8 × UInt8) :=
  if first < 0xc2 then none
  else if first < 0xe0 then some (1, 0x80, 0xbf)
  else if first == 0xe0 then some (2, 0xa0, 0xbf)
  else if first == 0xed then some (2, 0x80, 0x9f)
  else if first < 0xf0 then some (2, 0x80, 0xbf)
  else if first == 0xf0 then some (3, 0x90, 0xbf)
  else if first < 0xf4 then some (3, 0x80, 0xbf)
  else if first == 0xf4 then some (3, 0x80, 0x8f)
  else none

/-- Reads the continuation bytes of a character: its code point and how many bytes they were, or how
many bytes were good before the fault. -/
def readContinuation : (count : Nat) → (low high : UInt8) → (code read : Nat) → List UInt8 →
    Except (Nat × Utf8Fault) (Nat × Nat)
  | 0, _, _, code, read, _ => .ok (code, read)
  | _ + 1, _, _, _, read, [] => .error (read, .unexpectedEnd)
  | count + 1, low, high, code, read, byte :: bytes =>
    if low ≤ byte && byte ≤ high then
      readContinuation count 0x80 0xbf (code * 64 + (byte.toNat - 0x80)) (read + 1) bytes
    else .error (read, .invalidContinuation)

/-- The payload bits of the first byte of a character with some continuation bytes. -/
def leadBits (count : Nat) (first : UInt8) : Nat :=
  first.toNat % (if count == 1 then 0x20 else if count == 2 then 0x10 else 0x08)

/-- Decodes bytes from an offset on. -/
def decodeUtf8From (offset : Nat) : List UInt8 → Except Utf8Error (List Char)
  | [] => .ok []
  | first :: rest =>
    if first < 0x80 then (decodeUtf8From (offset + 1) rest).map (Char.ofNat first.toNat :: ·)
    else match continuation? first with
      | none => .error ⟨offset, [first], .invalidStart⟩
      | some (count, low, high) =>
        match readContinuation count low high (leadBits count first) 0 rest with
        | .error (read, fault) => .error ⟨offset, first :: rest.take read, fault⟩
        | .ok (code, read) =>
          (decodeUtf8From (offset + 1 + read) (rest.drop read)).map (Char.ofNat code :: ·)
termination_by bytes => bytes.length

/-- Decodes bytes. -/
def decodeUtf8 (bytes : List UInt8) : Except Utf8Error (List Char) := decodeUtf8From 0 bytes

/-- Two small hexadecimal digits. -/
def hexByte (b : UInt8) : String :=
  let digit (n : Nat) : Char := if n < 10 then Char.ofNat (48 + n) else Char.ofNat (87 + n)
  String.ofList [digit (b.toNat / 16), digit (b.toNat % 16)]

/-- The wording of a fault. -/
def Utf8Fault.message : Utf8Fault → String
  | .invalidStart => "invalid start byte"
  | .invalidContinuation => "invalid continuation byte"
  | .unexpectedEnd => "unexpected end of data"

/-- The report of a sequence that is not a character. One byte is shown, several are counted. -/
def Utf8Error.message (e : Utf8Error) : String :=
  let place := match e.bytes with
    | [byte] => s!"byte 0x{hexByte byte} in position {e.offset}"
    | bytes => s!"bytes in position {e.offset}-{e.offset + bytes.length - 1}"
  s!"'utf-8' codec can't decode {place}: {e.fault.message}"

/-- The bytes of one character. -/
def encodeChar (c : Char) : List UInt8 :=
  let n := c.toNat
  if n < 0x80 then [n.toUInt8]
  else if n < 0x800 then [(0xc0 + n / 64).toUInt8, (0x80 + n % 64).toUInt8]
  else if n < 0x10000 then
    [(0xe0 + n / 4096).toUInt8, (0x80 + n / 64 % 64).toUInt8, (0x80 + n % 64).toUInt8]
  else
    [(0xf0 + n / 262144).toUInt8, (0x80 + n / 4096 % 64).toUInt8, (0x80 + n / 64 % 64).toUInt8,
      (0x80 + n % 64).toUInt8]

/-- The bytes of a text. -/
def encodeUtf8 (text : List Char) : List UInt8 := text.flatMap encodeChar

end MessageCatalog.Text
