import MessageCatalog.Text.Character
import MessageCatalog.Text.Search

/-!
# MessageCatalog.Script.Lexeme -- the extent of tokens

Each function gives the number of characters that a token of some kind takes at the start of a text,
and zero where there is none. Which kind is looked for depends on the place in the grammar: a slash
starts a regular expression where an operand is due and divides elsewhere.
-/

namespace MessageCatalog.Script

open MessageCatalog.Text

/-! ## Blanks and comments -/

/-- White space between tokens. -/
def isSpace (c : Char) : Bool :=
  let n := c.toNat
  (0x09 ≤ n && n ≤ 0x0d) || n == 0x20 || n == 0xa0 || n == 0x1680 || (0x2000 ≤ n && n ≤ 0x200b) ||
    n == 0x2028 || n == 0x2029 || n == 0x202f || n == 0x205f || n == 0x2060 || n == 0x3000 ||
    n == 0xfeff

/-- White space at which a line may be broken. -/
def isBreakingSpace (c : Char) : Bool :=
  let n := c.toNat
  (0x09 ≤ n && n ≤ 0x0d) || n == 0x20 || n == 0x1680 || (0x2000 ≤ n && n ≤ 0x2006) ||
    (0x2008 ≤ n && n ≤ 0x200a) || n == 0x2028 || n == 0x2029 || n == 0x205f || n == 0x3000

/-- The characters that end a line. -/
def isLineEnd (c : Char) : Bool := c == '\n' || c == '\u2028' || c == '\u2029'

/-- The number of characters at the start of a text that are in a class. -/
def runLength (inClass : Char → Bool) (text : List Char) : Nat := (text.takeWhile inClass).length

/-- The number of characters behind the start of a block comment up to and including its end mark,
`none` if it has no end. -/
def blockCommentEnd? : List Char → (count : Nat) → Option Nat
  | [], _ => none
  | '*' :: '/' :: _, count => some (count + 2)
  | _ :: cs, count => blockCommentEnd? cs (count + 1)

/-- The length of a comment. -/
def commentLength (text : List Char) : Nat :=
  match text with
  | '/' :: '/' :: cs => 2 + runLength (fun c => !isLineEnd c && c != '\r') cs
  | '/' :: '*' :: cs => (blockCommentEnd? cs 2).getD 0
  | _ => 0

/-- The length of a comment that starts with one of the marks of a markup comment. -/
def markCommentLength (text : List Char) : Nat :=
  match text with
  | '<' :: '!' :: '-' :: '-' :: _ => runLength (fun c => !isLineEnd c) text
  | '-' :: '-' :: '>' :: _ => runLength (fun c => !isLineEnd c) text
  | _ => 0

/-- The length of the line that tells a system how to run a script. -/
def hashBangLength (text : List Char) : Nat :=
  match text with
  | '#' :: '!' :: _ => runLength (· != '\n') text
  | _ => 0

/-! ## Names -/

/-- Whether a character may stand in a name. -/
def isNameChar (c : Char) : Bool :=
  0x20 ≤ c.toNat && !isSpace c && !":;`\"'@#.,|^&<=>+-*/\\%?!~()[]\x7b\x7d".toList.contains c

/-- The length of an escape that writes a character by its code point, behind the backslash. -/
def codePointEscapeLength (text : List Char) : Nat :=
  match text with
  | 'u' :: '\x7b' :: cs =>
    let digits := runLength isHexDigit cs
    if digits != 0 && (cs.drop digits).head? == some '\x7d' then digits + 3 else 0
  | 'u' :: cs => if (cs.take 4).length == 4 && (cs.take 4).all isHexDigit then 5 else 0
  | _ => 0

/-- The length of one character of a name, which may be written as an escape. -/
def namePartLength (text : List Char) : Nat :=
  match text with
  | [] => 0
  | '\\' :: cs =>
    match codePointEscapeLength cs with
    | 0 => 0
    | n + 1 => n + 2
  | c :: _ => if isNameChar c then 1 else 0

/-- The length of the characters of a name, the first `inside` characters being known to belong to
it. -/
def namePartsFrom : (inside : Nat) → List Char → Nat
  | _, [] => 0
  | inside + 1, _ :: cs => 1 + namePartsFrom inside cs
  | 0, c :: cs =>
    match namePartLength (c :: cs) with
    | 0 => 0
    | n + 1 => 1 + namePartsFrom n cs

/-- The length of a name or a word. -/
def nameLength (text : List Char) : Nat :=
  if (text.head?.map isAsciiDigit).getD false then 0 else namePartsFrom 0 text

/-- The length of a private name. -/
def privateNameLength (text : List Char) : Nat :=
  match text with
  | '#' :: cs => if nameLength cs == 0 then 0 else 1 + nameLength cs
  | _ => 0

/-- The words that are never names of variables. -/
def reservedWords : List String :=
  ["break", "case", "catch", "class", "const", "continue", "debugger", "default", "delete", "do",
    "else", "export", "extends", "false", "finally", "for", "function", "if", "import", "in",
    "instanceof", "new", "null", "return", "super", "switch", "this", "throw", "true", "try",
    "typeof", "var", "void", "while", "with"]

/-- The length of the two words that start a static method with nothing but a line end behind
them. -/
def staticGetterLength (text : List Char) : Nat :=
  match after? "static".toList text with
  | none => 0
  | some cs =>
    let gap := runLength isSpacing cs
    match after? "get".toList (cs.drop gap) with
    | none => 0
    | some rest =>
      let blanks := rest.takeWhile isSpacing
      let lastLineEnd := (blanks.reverse.dropWhile (· != '\n')).length
      if gap == 0 || lastLineEnd == 0 then 0 else 6 + gap + 3 + lastLineEnd
where
  isSpacing (c : Char) : Bool := ('\t' ≤ c && c ≤ '\r') || c == ' '

/-! ## Numbers -/

/-- The length of an exponent. -/
def exponentLength (text : List Char) : Nat :=
  match text with
  | c :: cs =>
    if c == 'e' || c == 'E' then
      match cs with
      | s :: ds =>
        if s == '+' || s == '-' then
          if digitRun isAsciiDigit ds == 0 then 0 else 2 + digitRun isAsciiDigit ds
        else if digitRun isAsciiDigit cs == 0 then 0 else 1 + digitRun isAsciiDigit cs
      | [] => 0
    else 0
  | [] => 0

/-- The digits of the bases that have a letter. -/
def baseDigits? : Char → Option (Char → Bool)
  | 'x' | 'X' => some isHexDigit
  | 'o' | 'O' => some isOctalDigit
  | 'b' | 'B' => some fun c => c == '0' || c == '1'
  | _ => none

/-- The length of a decimal number. The digits before a point or an exponent start with at most one
zero. -/
def decimalLength (text : List Char) : Nat :=
  let whole := digitRun isAsciiDigit text
  let rest := text.drop whole
  let plain : Bool := match text with
    | '0' :: d :: _ => whole == 1 || ('1' ≤ d && d ≤ '9')
    | _ => true
  match rest with
  | '.' :: cs =>
    let fraction := digitRun isAsciiDigit cs
    if whole == 0 && fraction == 0 then 0
    else if plain then whole + 1 + fraction + exponentLength (cs.drop fraction)
    else whole
  | 'n' :: _ => if whole == 0 then 0 else whole + 1
  | _ => if whole == 0 then 0 else if plain then whole + exponentLength rest else whole

/-- The length of a number. -/
def numberLength (text : List Char) : Nat :=
  match text with
  | '0' :: b :: cs =>
    match baseDigits? b with
    | some isDigit =>
      let digits := digitRun isDigit cs
      if digits == 0 then 1
      else if (cs.drop digits).head? == some 'n' then digits + 3
      else digits + 2
    | none => decimalLength text
  | _ => decimalLength text

/-! ## Strings and templates -/

/-- The length of an escape. -/
def escapeLength (text : List Char) : Nat :=
  match text with
  | '\\' :: 'x' :: cs => if (cs.take 2).length == 2 && (cs.take 2).all isHexDigit then 4 else 0
  | '\\' :: 'u' :: cs =>
    match codePointEscapeLength ('u' :: cs) with
    | 0 => 0
    | n + 1 => n + 2
  | '\\' :: c :: cs =>
    if isOctalDigit c then 2 + ((cs.take 2).takeWhile isOctalDigit).length
    else if (c == '\r' || c == '?') && (cs.head?.map isLineEnd).getD false then 3
    else 2
  | _ => 0

/-- The length of plain text in a string with the given quotes. -/
def fragmentLength (quote : Char) (text : List Char) : Nat :=
  runLength (fun c => c != quote && c != '\\' && c != '\n' && c != '\r') text

/-- The length of plain text in a template, `none` if the template is not closed behind it. -/
def templateTextFrom : List Char → (count : Nat) → Option Nat
  | [], _ => none
  | '\x00' :: _, _ => none
  | '`' :: _, count => some count
  | '\\' :: _, count => some count
  | '$' :: '\x7b' :: _, count => some count
  | _ :: cs, count => templateTextFrom cs (count + 1)

/-- The length of plain text in a template that goes on behind it. -/
def templateTextLength (text : List Char) : Nat := (templateTextFrom text 0).getD 0

/-! ## Regular expressions -/

/-- The length of the rest of a class up to and including the closing bracket. -/
def classRest? : List Char → (count : Nat) → Option Nat
  | [], _ => none
  | '\n' :: _, _ => none
  | ']' :: _, count => some (count + 1)
  | '\\' :: c :: cs, count => if c == '\n' then none else classRest? cs (count + 2)
  | '\\' :: [], _ => none
  | _ :: cs, count => classRest? cs (count + 1)

/-- The length of the body of a regular expression, the first `inside` characters being known to
belong to it. A slash in a class does not end it. -/
def regexBodyFrom : (inside : Nat) → List Char → (count : Nat) → Nat
  | _, [], count => count
  | inside + 1, _ :: cs, count => regexBodyFrom inside cs (count + 1)
  | 0, c :: cs, count =>
    if c == '/' || c == '\n' then count
    else if c == '[' then
      match classRest? cs 0 with
      | none => count
      | some n => regexBodyFrom n cs (count + 1)
    else if c == '\\' then
      if (cs.head?.map (· != '\n')).getD false then regexBodyFrom 1 cs (count + 1) else count
    else regexBodyFrom 0 cs (count + 1)

/-- The length of the body of a regular expression. -/
def regexBodyLength (text : List Char) : Nat := regexBodyFrom 0 text 0

/-- The length of the flags of a regular expression. -/
def regexFlagsLength (text : List Char) : Nat := runLength (fun f => 'a' ≤ f && f ≤ 'z') text

/-! ## Embedded markup -/

/-- The length of a name with a hyphen in it. -/
def hyphenatedLength (text : List Char) : Nat :=
  let startsWell := (text.head?.map fun c => isAsciiLetter c || c == '_' || c == '$').getD false
  let run := text.takeWhile fun c => isAsciiAlphanumeric c || c == '_' || c == '$' || c == '-'
  if startsWell && run.contains '-' then run.length else 0

/-- The length of a character reference. -/
def referenceLength (text : List Char) : Nat :=
  let closed (length : Nat) : Nat := if (text.drop length).head? == some ';' then length + 1 else 0
  let run (inClass : Char → Bool) (most : Nat) (cs : List Char) : Nat :=
    runLength inClass (cs.take most)
  match text with
  | '&' :: '#' :: x :: cs =>
    if x == 'x' || x == 'X' then
      let n := run isHexDigit 6 cs
      if n == 0 then 0 else closed (3 + n)
    else
      let n := run isAsciiDigit 5 (x :: cs)
      if n == 0 then 0 else closed (2 + n)
  | '&' :: cs =>
    let n := run isAsciiLetter 30 cs
    if n == 0 then 0 else closed (1 + n)
  | _ => 0

/-- The length of plain text in the string of an attribute. An ampersand belongs to it together with
the character behind, unless a character reference may start there. -/
def attributeTextFrom (quote : Char) : List Char → (count : Nat) → Nat
  | [], count => count
  | '&' :: c :: cs, count =>
    if c == '#' || isAsciiLetter c then count else attributeTextFrom quote cs (count + 2)
  | c :: cs, count =>
    if c == quote || c == '&' then count else attributeTextFrom quote cs (count + 1)

/-- The length of plain text in the string of an attribute. -/
def attributeTextLength (quote : Char) (text : List Char) : Nat := attributeTextFrom quote text 0

/-- Whether text is more than line ends and the margins behind them. -/
def isProperText : (atLineStart : Bool) → List Char → Bool
  | _, [] => false
  | atLineStart, c :: cs =>
    if c == '\n' then isProperText true cs
    else if atLineStart && isBreakingSpace c then isProperText true cs
    else true

/-- The length of the text up to the next tag, expression or reference. -/
def contentLength (text : List Char) : Nat :=
  runLength (fun c => !"<>\x7b\x7d&\x00".toList.contains c) text

/-- The length of text between tags. The margins of lines alone are none. -/
def markupTextLength (text : List Char) : Nat :=
  let content := text.take (contentLength text)
  if isProperText false content then content.length else 0

end MessageCatalog.Script
