import MessageCatalog.Json.Value
import MessageCatalog.Text.Cursor
import MessageCatalog.Text.Search
import MessageCatalog.Text.Surrogate

/-!
# MessageCatalog.Json.Reader -- JSON text to values

A reader by recursive descent over the characters that are left. A fault is its cause and the number
of characters from its place to the end of the text; only the outermost function turns that into a
line and a column. Besides the standard, `NaN`, `Infinity` and `-Infinity` are numbers.

An escape can name a surrogate, and one without its partner is no character, so no text of this
library holds it. A whole text is read twice for that reason: with a stand-in for every such
surrogate, which finds what else is wrong with it, and without.

The recursion is bounded by the length of the text: every value takes at least one character.
-/

namespace MessageCatalog.Json

open MessageCatalog.Number MessageCatalog.Text

/-! ## Faults -/

/-- What is wrong with a JSON text. -/
inductive Cause where
  | expectedValue
  | expectedName
  | expectedColon
  | expectedComma
  | extraData
  | unterminatedText
  | invalidEscape
  | invalidUnicodeEscape
  | controlCharacter
  | byteOrderMark
  | loneSurrogate
  deriving DecidableEq, Repr

/-- The wording of a cause. -/
def Cause.message : Cause → String
  | .expectedValue => "Expecting value"
  | .expectedName => "Expecting property name enclosed in double quotes"
  | .expectedColon => "Expecting ':' delimiter"
  | .expectedComma => "Expecting ',' delimiter"
  | .extraData => "Extra data"
  | .unterminatedText => "Unterminated string starting at"
  | .invalidEscape => "Invalid \\escape"
  | .invalidUnicodeEscape => "Invalid \\uXXXX escape"
  | .controlCharacter => "Invalid control character at"
  | .byteOrderMark => "Unexpected UTF-8 BOM (decode using utf-8-sig)"
  | .loneSurrogate => "Lone surrogate"

/-- A cause and the number of characters from its place to the end of the text. -/
structure Fault where
  cause : Cause
  left : Nat
  deriving DecidableEq, Repr

/-- A fault where `rest` is still to be read. -/
def Fault.at (cause : Cause) (rest : List Char) : Fault := ⟨cause, rest.length⟩

/-- A cause and the offset of its place. -/
structure ReadError where
  cause : Cause
  offset : Nat
  position : Position
  deriving DecidableEq, Repr

/-- The report of an unreadable text. -/
def ReadError.message (e : ReadError) : String :=
  s!"{e.cause.message}: line {e.position.line} column {e.position.column} (char {e.offset})"

/-! ## Leaves -/

/-- The white space of JSON. -/
def isSpace (c : Char) : Bool := c == ' ' || c == '\t' || c == '\n' || c == '\r'

/-- The text from the next character that is not white space. -/
def skipSpaces (text : List Char) : List Char := text.dropWhile isSpace

/-- The character that a one-letter escape stands for. -/
def simpleEscape? : Char → Option Char
  | '"' => some '"'
  | '\\' => some '\\'
  | '/' => some '/'
  | 'b' => some '\x08'
  | 'f' => some '\x0c'
  | 'n' => some '\n'
  | 'r' => some '\r'
  | 't' => some '\t'
  | _ => none

/-- The code unit of four hexadecimal digits. A character has to follow them: the text cannot end
with an escape. -/
def unicodeEscape? : List Char → Option Nat
  | a :: b :: c :: d :: _ :: _ =>
    if isHexDigit a && isHexDigit b && isHexDigit c && isHexDigit d then
      some (numeral 16 [a, b, c, d])
    else none
  | _ => none

/-- Reads the rest of a text up to its closing quote: its code points and what follows the quote.
`opening` is the number of characters from the opening quote to the end. -/
def readCodes (opening : Nat) : List Char → Except Fault (List Nat × List Char)
  | [] => .error ⟨.unterminatedText, opening⟩
  | '"' :: rest => .ok ([], rest)
  | ['\\'] => .error ⟨.unterminatedText, opening⟩
  | '\\' :: 'u' :: rest =>
    match unicodeEscape? rest with
    | none => .error (.at .invalidUnicodeEscape ('u' :: rest))
    | some code => (readCodes opening (rest.drop 4)).map fun (codes, rest) => (code :: codes, rest)
  | '\\' :: c :: rest =>
    match simpleEscape? c with
    | none => .error (.at .invalidEscape ('\\' :: c :: rest))
    | some e => (readCodes opening rest).map fun (codes, rest) => (e.toNat :: codes, rest)
  | c :: rest =>
    if c.toNat < 0x20 then .error (.at .controlCharacter (c :: rest))
    else (readCodes opening rest).map fun (codes, rest) => (c.toNat :: codes, rest)
termination_by text => text.length

/-- Reads the rest of a text up to its closing quote. A surrogate without its partner becomes the
character that `lone` gives for it; where it gives none it is a fault. -/
def readText (lone : Nat → Option Char) (opening : Nat) (text : List Char) :
    Except Fault (String × List Char) :=
  match readCodes opening text with
  | .error fault => .error fault
  | .ok (codes, rest) =>
    match joinSurrogatesWith lone codes with
    | some chars => .ok (String.ofList chars, rest)
    | none => .error (.at .loneSurrogate rest)

/-- The digits of a fraction after its point, when there is at least one, and what follows. -/
def readFraction (text : List Char) : Option (List Char × List Char) :=
  match text with
  | '.' :: d :: rest =>
    if isAsciiDigit d then
      some (d :: rest.takeWhile isAsciiDigit, rest.dropWhile isAsciiDigit)
    else none
  | _ => none

/-- An exponent with at least one digit, and what follows. -/
def readExponent (text : List Char) : Option (Int × List Char) :=
  match text with
  | e :: rest =>
    if e == 'e' || e == 'E' then
      let (negative, digits) := match rest with
        | '-' :: digits => (true, digits)
        | '+' :: digits => (false, digits)
        | digits => (false, digits)
      let run := digits.takeWhile isAsciiDigit
      if run.isEmpty then none
      else
        let size : Int := numeral 10 run
        some (if negative then -size else size, digits.dropWhile isAsciiDigit)
    else none
  | [] => none

/-- The digits of a whole number: a zero alone or a run that starts with another digit. -/
def readWhole (text : List Char) : Option (List Char × List Char) :=
  match text with
  | '0' :: rest => some (['0'], rest)
  | d :: rest =>
    if isAsciiDigit d then
      some (d :: rest.takeWhile isAsciiDigit, rest.dropWhile isAsciiDigit)
    else none
  | [] => none

/-- A number after its sign. Without a fraction and an exponent it is whole. -/
def readUnsigned (negative : Bool) (text : List Char) : Option (Value × List Char) :=
  match readWhole text with
  | none => none
  | some (whole, rest) =>
    let (fraction, afterFraction) := (readFraction rest).getD ([], rest)
    match readExponent afterFraction with
    | some (exponent, rest) =>
      let digits := numeral 10 (whole ++ fraction)
      some (.real (Double.ofDecimal negative digits (exponent - fraction.length)), rest)
    | none =>
      if fraction.isEmpty then
        let size : Int := numeral 10 whole
        some (.int (if negative then -size else size), afterFraction)
      else
        let digits := numeral 10 (whole ++ fraction)
        some (.real (Double.ofDecimal negative digits (-(fraction.length : Int))), afterFraction)

/-- A number with its sign. -/
def readNumber (text : List Char) : Option (Value × List Char) :=
  match text with
  | '-' :: rest => readUnsigned true rest
  | _ => readUnsigned false text

/-- The constants that are words. -/
def constants : List (String × Value) :=
  [("null", .null), ("true", .bool true), ("false", .bool false), ("NaN", .real .nan),
    ("Infinity", .real (.infinite false)), ("-Infinity", .real (.infinite true))]

/-- A constant or a number. -/
def readScalar (text : List Char) : Except Fault (Value × List Char) :=
  match constants.findSome? fun (word, value) =>
      (after? word.toList text).map fun rest => (value, rest) with
  | some result => .ok result
  | none =>
    match readNumber text with
    | some result => .ok result
    | none => .error (.at .expectedValue text)

/-! ## Values -/

mutual
/-- Reads the value that starts here. -/
def readValue (lone : Nat → Option Char) :
    (fuel : Nat) → List Char → Except Fault (Value × List Char)
  | 0, text => .error (.at .expectedValue text)
  | fuel + 1, text =>
    match text with
    | '"' :: rest => (readText lone text.length rest).map fun (s, rest) => (.text s, rest)
    | '[' :: rest =>
      match skipSpaces rest with
      | ']' :: rest => .ok (.array [], rest)
      | rest => (readItems lone fuel rest).map fun (items, rest) => (.array items, rest)
    | '\x7b' :: rest =>
      match skipSpaces rest with
      | '\x7d' :: rest => .ok (.object [], rest)
      | rest =>
        (readMembers lone fuel rest).map fun (pairs, rest) => (.object (Members.ofList pairs), rest)
    | _ => readScalar text

/-- Reads the items of an array from the first one to the closing bracket. -/
def readItems (lone : Nat → Option Char) :
    (fuel : Nat) → List Char → Except Fault (List Value × List Char)
  | 0, text => .error (.at .expectedValue text)
  | fuel + 1, text =>
    match readValue lone fuel text with
    | .error fault => .error fault
    | .ok (value, rest) =>
      match skipSpaces rest with
      | ']' :: rest => .ok ([value], rest)
      | ',' :: rest =>
        (readItems lone fuel (skipSpaces rest)).map fun (items, rest) => (value :: items, rest)
      | rest => .error (.at .expectedComma rest)

/-- Reads the members of an object from the first one to the closing brace. -/
def readMembers (lone : Nat → Option Char) :
    (fuel : Nat) → List Char → Except Fault (List (String × Value) × List Char)
  | 0, text => .error (.at .expectedName text)
  | fuel + 1, text =>
    match text with
    | '"' :: rest =>
      match readText lone text.length rest with
      | .error fault => .error fault
      | .ok (name, rest) =>
        match skipSpaces rest with
        | ':' :: rest =>
          match readValue lone fuel (skipSpaces rest) with
          | .error fault => .error fault
          | .ok (value, rest) =>
            match skipSpaces rest with
            | '\x7d' :: rest => .ok ([(name, value)], rest)
            | ',' :: rest =>
              (readMembers lone fuel (skipSpaces rest)).map fun (pairs, rest) =>
                ((name, value) :: pairs, rest)
            | rest => .error (.at .expectedComma rest)
        | rest => .error (.at .expectedColon rest)
    | _ => .error (.at .expectedName text)
end

/-- Reads a whole text as one value. -/
def readDocument (lone : Nat → Option Char) (text : List Char) : Except Fault Value :=
  match text with
  | '\ufeff' :: _ => .error (.at .byteOrderMark text)
  | _ =>
    match readValue lone (2 * text.length + 1) (skipSpaces text) with
    | .error fault => .error fault
    | .ok (value, rest) =>
      match skipSpaces rest with
      | [] => .ok value
      | rest => .error (.at .extraData rest)

/-- Why a text is not read as a value. -/
inductive Unread where
  | malformed (error : ReadError)
  /-- A surrogate in it stands alone, which is no character. -/
  | loneSurrogate
  deriving Repr

/-- Reads a whole text as one value, and says where it cannot be read. -/
def read (text : List Char) : Except Unread Value :=
  match readDocument (fun n => some (standIn n)) text with
  | .error fault =>
    let offset := text.length - fault.left
    .error (.malformed ⟨fault.cause, offset, Position.at text offset⟩)
  | .ok _ =>
    match readDocument (fun _ => none) text with
    | .ok value => .ok value
    | .error _ => .error .loneSurrogate

end MessageCatalog.Json
