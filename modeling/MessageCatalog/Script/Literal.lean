import MessageCatalog.Text.Character
import MessageCatalog.Text.Cursor
import MessageCatalog.Text.Surrogate

/-!
# MessageCatalog.Script.Literal -- string literals of scripts

Text goes into a script as a quoted literal and comes out of one. On the way in, control characters,
both quotes, the backslash and the characters of markup are written as hexadecimal escapes, so that
the literal is safe inside a page too. On the way out every escape of the language is resolved.
-/

namespace MessageCatalog.Script

open MessageCatalog.Text

/-! ## Writing -/

/-- Whether a character is escaped in a literal. -/
def needsEscape (c : Char) : Bool :=
  c.toNat < 0x20 || c == '"' || c == '\'' || c == '\\' || c == '<' || c == '>' || c == '&'

/-- One character of a literal. -/
def escapeChar (c : Char) : List Char :=
  if needsEscape c then '\\' :: 'x' :: hexNumeral 2 c.toNat else [c]

/-- The content of a literal that denotes a text. -/
def escape (text : List Char) : List Char := text.flatMap escapeChar

/-- Content in double quotes. -/
def quote (content : List Char) : List Char := '"' :: content ++ ['"']

/-- A literal that denotes a text. -/
def literal (text : List Char) : List Char := quote (escape text)

/-! ## Faults -/

/-- Why a token is not a string literal. -/
inductive LiteralCause where
  | expectedQuote
  | unterminated
  | lineBreak
  | trailingText
  | unexpectedEnd
  | invalidHex (count : Nat)
  | invalidCodePoint
  | codePointOutOfRange (digits : List Char)
  deriving DecidableEq, Repr

/-- The wording of a cause. -/
def LiteralCause.message : LiteralCause → String
  | .expectedQuote => "Expected opening quote"
  | .unterminated => "Unterminated string literal"
  | .lineBreak => "Unescaped line break in string literal"
  | .trailingText => "Unexpected text after string literal"
  | .unexpectedEnd => "Unexpected end of literal in escape sequence"
  | .invalidHex count => s!"Invalid hexadecimal escape (expected {count} hex digits)"
  | .invalidCodePoint => "Invalid code point escape"
  | .codePointOutOfRange digits => "Code point out of range: U+" ++ String.ofList digits

/-- A cause and the number of characters from its place to the end of the token. -/
structure LiteralFault where
  cause : LiteralCause
  left : Nat
  deriving DecidableEq, Repr

/-- A fault where `rest` is still to be read. -/
def LiteralFault.at (cause : LiteralCause) (rest : List Char) : LiteralFault := ⟨cause, rest.length⟩

/-- Why a token denotes no text. -/
inductive LiteralError where
  | malformed (cause : LiteralCause) (position : Position)
  /-- The literal denotes a surrogate without its partner. -/
  | loneSurrogate
  deriving DecidableEq, Repr

/-- The report of a token that denotes no text. -/
def LiteralError.message : LiteralError → String
  | .malformed cause position => s!"{position.line}:{position.column}: {cause.message}"
  | .loneSurrogate => "Lone surrogate in string literal"

/-! ## Escapes -/

/-- The control characters that have a letter. -/
def controlEscape? : Char → Option Char
  | 'b' => some '\x08'
  | 'f' => some '\x0c'
  | 'n' => some '\n'
  | 'r' => some '\r'
  | 't' => some '\t'
  | 'v' => some '\x0b'
  | _ => none

/-- Line ends other than the carriage return, which may be half of one. -/
def isLineTerminator (c : Char) : Bool := c == '\n' || c == '\u2028' || c == '\u2029'

/-- Reads exactly `count` hexadecimal digits. -/
def readHex (count : Nat) (text : List Char) : Except LiteralFault (Nat × List Char) :=
  let digits := text.take count
  if digits.length == count && digits.all isHexDigit then
    .ok (numeral 16 digits, text.drop count)
  else .error (.at (.invalidHex count) text)

/-- Reads a code unit or a code point, after the letter of its escape. -/
def readUnicode (text : List Char) : Except LiteralFault (Nat × List Char) :=
  match text with
  | '\x7b' :: rest =>
    let digits := rest.takeWhile (· != '\x7d')
    match rest.dropWhile (· != '\x7d') with
    | [] => .error (.at .invalidCodePoint text)
    | _ :: rest =>
      if digits.isEmpty || !digits.all isHexDigit then .error (.at .invalidCodePoint text)
      else if 0x10ffff < numeral 16 digits then .error (.at (.codePointOutOfRange digits) text)
      else .ok (numeral 16 digits, rest)
  | _ => readHex 4 text

/-- The digits of an octal escape: the longest run of at most three digits, or of two when the first
is above three. -/
def octalDigits (first : Char) (rest : List Char) : List Char :=
  first :: (rest.take (if first ≤ '3' then 2 else 1)).takeWhile isOctalDigit

/-- Reads an escape after its backslash: the code points that it denotes, and what follows. -/
def readEscape (text : List Char) : Except LiteralFault (List Nat × List Char) :=
  match text with
  | [] => .error (.at .unexpectedEnd [])
  | c :: rest =>
    match controlEscape? c with
    | some e => .ok ([e.toNat], rest)
    | none =>
      if c == '\r' then .ok ([], if rest.head? == some '\n' then rest.drop 1 else rest)
      else if isLineTerminator c then .ok ([], rest)
      else if isOctalDigit c then
        let digits := octalDigits c rest
        .ok ([numeral 8 digits], rest.drop (digits.length - 1))
      else if c == 'x' then
        match readHex 2 rest with
        | .ok (code, rest) => .ok ([code], rest)
        | .error fault => .error fault
      else if c == 'u' then
        match readUnicode rest with
        | .ok (code, rest) => .ok ([code], rest)
        | .error fault => .error fault
      else .ok ([c.toNat], rest)

/-! ## Literals -/

/-- Reads the content of a literal and its closing quote: the code points that it denotes and what
follows. Every piece takes at least one character, which is what `fuel` counts. -/
def readContent (quote : Char) : (fuel : Nat) → List Char →
    Except LiteralFault (List Nat × List Char)
  | 0, text => .error (.at .unterminated text)
  | _ + 1, [] => .error (.at .unterminated [])
  | fuel + 1, c :: rest =>
    if c == quote then .ok ([], rest)
    else if c == '\\' then
      match readEscape rest with
      | .error fault => .error fault
      | .ok (codes, rest) =>
        (readContent quote fuel rest).map fun (others, rest) => (codes ++ others, rest)
    else if c == '\n' || c == '\r' then .error (.at .lineBreak (c :: rest))
    else (readContent quote fuel rest).map fun (others, rest) => (c.toNat :: others, rest)

/-- The code points that a token denotes. -/
def readToken (token : List Char) : Except LiteralFault (List Nat) :=
  match token with
  | [] => .error (.at .expectedQuote [])
  | c :: rest =>
    if c == '"' || c == '\'' then
      match readContent c token.length rest with
      | .error fault => .error fault
      | .ok (codes, []) => .ok codes
      | .ok (_, rest) => .error (.at .trailingText rest)
    else .error (.at .expectedQuote token)

/-- The report of a fault in a token. -/
def LiteralFault.inToken (token : List Char) (fault : LiteralFault) : LiteralError :=
  .malformed fault.cause (Position.at token (token.length - fault.left))

/-- The text that code points denote. -/
def denoted (codes : List Nat) : Except LiteralError (List Char) :=
  match joinSurrogates? codes with
  | some text => .ok text
  | none => .error .loneSurrogate

/-- The text that a token denotes. -/
def decode (token : List Char) : Except LiteralError (List Char) :=
  match readToken token with
  | .error fault => .error (fault.inToken token)
  | .ok codes => denoted codes

/-- The text that a token denotes in which characters stand in for surrogates. They are joined like
those of escapes, but only in a token that has an escape; any other denotes what stands in it. -/
def decodeMasked (token : List Char) : Except LiteralError (List Char) :=
  match readToken token with
  | .error fault => .error (fault.inToken token)
  | .ok codes =>
    if token.contains '\\' then denoted (codes.map unmasked) else .ok (codes.map Char.ofNat)

end MessageCatalog.Script
