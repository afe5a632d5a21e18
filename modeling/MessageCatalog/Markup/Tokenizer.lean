import MessageCatalog.Markup.StartTag
import MessageCatalog.Text.Quoted

/-!
# MessageCatalog.Markup.Tokenizer -- pages to events

The text is read in two passes. The first stops where a construct is not finished, because more text
might follow; the second starts there, knows that nothing follows, and turns an unfinished construct
into data. Whatever the second pass leaves is data too, except inside raw text.

Every step reads at least one character: a construct reports how many characters it takes *after*
the first, so that the text that is left is a proper suffix by construction.
-/

namespace MessageCatalog.Markup

open MessageCatalog.Text

/-! ## References -/

/-- A character of the name of a reference, after its first letter. -/
def isReferenceNameCharacter (c : Char) : Bool := isAsciiAlphanumeric c || c == '-' || c == '.'

/-- The number of leading characters of `run` that are the name of a reference when the text ends
with `run`: up to the last hyphen or dot, none when there is no such mark. -/
def nameLengthAtEnd (run : List Char) : Nat :=
  (run.reverse.dropWhile isAsciiAlphanumeric).length - 1

/-- The name of the reference that starts after an ampersand. A name is followed by a character that
is not a letter or a digit. -/
def readReferenceName (text : List Char) : Option (List Char) :=
  match text with
  | [] => none
  | c :: cs =>
    if isAsciiLetter c then
      let run := cs.takeWhile isReferenceNameCharacter
      if run.length < cs.length then some (c :: run)
      else
        let size := nameLengthAtEnd run
        if size < run.length && (run.drop size).head?.any (fun d => !isAsciiAlphanumeric d) then
          some (c :: run.take size)
        else none
    else none

/-- The digits of the numeric reference that starts after an ampersand and a number sign. They are
followed by a character that is no hexadecimal digit. -/
def readReferenceDigits (text : List Char) : Option (List Char) :=
  let (marks, digits, rest) := match text with
    | 'x' :: hex => (['x'], hex.takeWhile isHexDigit, hex.dropWhile isHexDigit)
    | 'X' :: hex => (['X'], hex.takeWhile isHexDigit, hex.dropWhile isHexDigit)
    | _ => ([], text.takeWhile isAsciiDigit, text.dropWhile isAsciiDigit)
  match rest with
  | [] => none
  | c :: _ => if digits.isEmpty || isHexDigit c then none else some (marks ++ digits)

/-- One if a text starts with a semicolon, zero if not. -/
def semicolonSize (text : List Char) : Nat := if text.head? == some ';' then 1 else 0

/-! ## Outcomes -/

/-- What one construct comes to. Sizes do not count its first character. -/
inductive Outcome where
  /-- An event, or nothing, and the mode that follows. -/
  | event (size : Nat) (event : Option Event) (mode : Mode)
  /-- The pass ends, after some data if there is any. -/
  | stop (taken : List Char)
  /-- The pass ends and drops the first character. -/
  | drop
  /-- The page is rejected at some distance from the start of the construct. -/
  | reject (distance : Nat) (why : Rejection)
  deriving DecidableEq, Repr

/-- A construct that takes the text up to `rest`. -/
def Outcome.upTo (text rest : List Char) (event : Option Event) (mode : Mode) : Outcome :=
  .event (text.length - rest.length - 1) event mode

/-- Data that takes the text up to `rest`. -/
def Outcome.dataUpTo (text rest : List Char) (mode : Mode) : Outcome :=
  .upTo text rest (some (.data (text.take (text.length - rest.length)))) mode

/-- An unfinished construct: the pass stops, unless nothing follows the text. Then everything
through the next closing bracket is data, or else everything before the next opening one, or else
one character. -/
def unfinished (final : Bool) (text : List Char) : Outcome :=
  if final then
    let rest := text.drop 1
    match rest.dropWhile (· != '>') with
    | _ :: after => .dataUpTo text after .markup
    | [] =>
      match rest.dropWhile (· != '<') with
      | [] => .dataUpTo text rest .markup
      | opened => .dataUpTo text opened .markup
  else .stop []

/-! ## Declarations and comments -/

/-- Whether a text starts with the end of a comment: two hyphens, white space and a bracket. -/
def startsCommentEnd (text : List Char) : Bool :=
  match after? ['-', '-'] text with
  | some rest => (rest.dropWhile isBlank).head? == some '>'
  | none => false

/-- Whether a text starts with the end of a marked section: `brackets` square brackets and an angle
bracket, with white space between them. -/
def startsSectionEnd : (brackets : Nat) → List Char → Bool
  | 0, text => text.head? == some '>'
  | brackets + 1, text =>
    match text with
    | ']' :: rest => startsSectionEnd brackets (rest.dropWhile isBlank)
    | _ => false

/-- What follows the next closing angle bracket. -/
def afterBracket (text : List Char) : List Char := (text.dropWhile (· != '>')).drop 1

/-- The text before the first place where `stop` holds, and what follows the bracket after it. -/
def enclosed? (stop : List Char → Bool) (text : List Char) : Option (List Char × List Char) :=
  (breakWhere stop text).map fun (inside, rest) => (inside, afterBracket rest)

/-- The text before the next closing angle bracket and what follows it. -/
def upToBracket? (text : List Char) : Option (List Char × List Char) :=
  splitAtFirst ['>'] text

/-- The kinds of marked section that end in two square brackets. -/
def doubleBracketSections : List String := ["temp", "cdata", "ignore", "include", "rcdata"]

/-- The kinds of marked section that end in one square bracket. -/
def singleBracketSections : List String := ["if", "else", "endif"]

/-- A character of the name of a marked section, after its first letter. -/
def isSectionNameCharacter (c : Char) : Bool :=
  isAsciiAlphanumeric c || c == '-' || c == '_' || c == '.'

/-- Reads a marked section, `text` starting at its angle bracket. -/
def readSection (final : Bool) (text : List Char) : Outcome :=
  let inside := text.drop 3
  match inside with
  | [] => unfinished final text
  | c :: cs =>
    if isAsciiLetter c then
      let name := c :: cs.takeWhile isSectionNameCharacter
      let spaces := (cs.dropWhile isSectionNameCharacter).takeWhile isBlank
      if inside.length ≤ name.length + spaces.length then unfinished final text
      else
        let kind := nameOf name
        let brackets :=
          if doubleBracketSections.contains kind then some 2
          else if singleBracketSections.contains kind then some 1
          else none
        match brackets with
        | none => .reject 0 (.unknownSection (name ++ spaces))
        | some count =>
          match enclosed? (startsSectionEnd count) inside with
          | none => unfinished final text
          | some (content, rest) => .upTo text rest (some (.marked content)) .markup
    else .reject 3 (.missingSectionName (text.take 20))

/-- Reads what starts with a bracket and an exclamation mark. -/
def readDeclaration (final : Bool) (text : List Char) : Outcome :=
  let inside := text.drop 2
  match inside with
  | '[' :: _ => readSection final text
  | _ =>
    if lowercase (inside.take 7) == "doctype".toList then
      match upToBracket? (inside.drop 7) with
      | none => unfinished final text
      | some (others, rest) =>
        .upTo text rest (some (.declaration (inside.take 7 ++ others))) .markup
    else
      match upToBracket? inside with
      | none => unfinished final text
      | some (content, rest) => .upTo text rest (some (.comment content)) .markup

/-! ## End tags -/

/-- A character of the name of an end tag, after its first letter. -/
def isEndNameCharacter (c : Char) : Bool :=
  isAsciiAlphanumeric c || c == '-' || c == '.' || c == ':' || c == '_'

/-- The name of a well-formed end tag and what follows it, for a text after the bracket and the
slash. -/
def readEndTag (inside : List Char) : Option (String × List Char) :=
  match inside.dropWhile isBlank with
  | [] => none
  | c :: cs =>
    if isAsciiLetter c then
      match (cs.dropWhile isEndNameCharacter).dropWhile isBlank with
      | '>' :: rest => some (nameOf (c :: cs.takeWhile isEndNameCharacter), rest)
      | _ => none
    else none

/-- Reads what starts with a bracket and a slash. -/
def readClosing (final : Bool) (text : List Char) : Outcome :=
  let inside := text.drop 2
  match upToBracket? inside with
  | none => unfinished final text
  | some (content, rest) =>
    match readEndTag inside with
    | some (name, rest) => .upTo text rest (some (.endTag name)) .markup
    | none =>
      match inside with
      | [] => unfinished final text
      | c :: _ =>
        if isAsciiLetter c then
          let afterName := inside.dropWhile isTagNameCharacter
          .upTo text (afterBracket afterName)
            (some (.endTag (nameOf (inside.takeWhile isTagNameCharacter)))) .markup
        else if c == '>' then .upTo text rest none .markup
        else .upTo text rest (some (.comment content)) .markup

/-! ## Raw text -/

/-- The elements whose content is raw text. -/
def rawTextElements : List String := ["script", "style"]

/-- Whether a text starts with the end tag of an element. -/
def startsEndTagOf (element : String) (text : List Char) : Bool :=
  match after? ['<', '/'] text with
  | none => false
  | some inside =>
    match afterName? element.toList (inside.dropWhile isBlank) with
    | none => false
    | some rest => (rest.dropWhile isBlank).head? == some '>'

/-- Reads what looks like the end tag of the element whose raw text this is. -/
def readRawClosing (element : String) (text : List Char) : Outcome :=
  match readEndTag (text.drop 2) with
  | some (name, rest) =>
    if name == element then .upTo text rest (some (.endTag name)) .markup
    else .dataUpTo text (afterBracket text) (.raw element)
  | none => .dataUpTo text (afterBracket text) (.raw element)

/-! ## One construct -/

/-- Reads a start tag. -/
def readOpening (final : Bool) (text : List Char) : Outcome :=
  match readStartTag (text.drop 1) with
  | .complete name attributes selfClosing rest =>
    let mode := if !selfClosing && rawTextElements.contains name then .raw name else .markup
    .upTo text rest (some (.startTag name attributes selfClosing)) mode
  | .incomplete => unfinished final text
  | .malformed rest => .dataUpTo text rest .markup

/-- Reads what starts with an angle bracket. -/
def readBracket (final : Bool) (text : List Char) : Outcome :=
  match text.drop 1 with
  | [] => .stop []
  | c :: rest =>
    if isAsciiLetter c then readOpening final text
    else if c == '/' then readClosing final text
    else if startsWith ['!', '-', '-'] (c :: rest) then
      match enclosed? startsCommentEnd (rest.drop 2) with
      | none => unfinished final text
      | some (content, rest) => .upTo text rest (some (.comment content)) .markup
    else if c == '?' then
      match upToBracket? rest with
      | none => unfinished final text
      | some (content, rest) => .upTo text rest (some (.instruction content)) .markup
    else if c == '!' then readDeclaration final text
    else .event 0 (some (.data ['<'])) .markup

/-- Reads what starts with an ampersand. -/
def readAmpersand (final : Bool) (text : List Char) : Outcome :=
  match text.drop 1 with
  | [] => .stop []
  | '#' :: rest =>
    match readReferenceDigits rest with
    | some digits =>
      .event (1 + digits.length + semicolonSize (rest.drop digits.length))
        (some (.numeric digits)) .markup
    | none => if rest.contains ';' then .stop ['&', '#'] else .stop []
  | c :: rest =>
    match readReferenceName (c :: rest) with
    | some name =>
      .event (name.length + semicolonSize ((c :: rest).drop name.length))
        (some (.named name)) .markup
    | none =>
      if isAsciiLetter c then (if final && rest.isEmpty then .drop else .stop [])
      else .event 0 (some (.data ['&'])) .markup

/-- The characters that may start a construct. -/
def startsConstruct (c : Char) : Bool := c == '<' || c == '&'

/-- Reads from the front of a text that is not empty: data up to the next construct, or a
construct. -/
def readPiece (final : Bool) (mode : Mode) (text : List Char) : Outcome :=
  match mode with
  | .markup =>
    match text with
    | '<' :: _ => readBracket final text
    | '&' :: _ => readAmpersand final text
    | _ => .dataUpTo text (text.dropWhile fun c => !startsConstruct c) .markup
  | .raw element =>
    match breakWhere (startsEndTagOf element) text with
    | none => .stop []
    | some ([], _) => readRawClosing element text
    | some (_, rest) => .dataUpTo text rest mode

/-! ## Passes -/

/-- What a pass leaves: its events in order, the mode and the text where it stopped with its offset,
and the rejection if there is one. -/
structure PassResult where
  events : List Located
  mode : Mode
  offset : Nat
  rest : List Char
  rejection : Option (Nat × Rejection)
  deriving DecidableEq, Repr

/-- Puts an event in front of what a pass reads. -/
def PassResult.push (r : PassResult) (offset : Nat) (event : Option Event) : PassResult :=
  match event with
  | some e => { r with events := ⟨offset, e⟩ :: r.events }
  | none => r

/-- One pass over a text that starts at an offset. -/
def pass (final : Bool) (mode : Mode) (offset : Nat) : List Char → PassResult
  | [] => ⟨[], mode, offset, [], none⟩
  | c :: cs =>
    match readPiece final mode (c :: cs) with
    | .event size event mode' =>
      (pass final mode' (offset + size + 1) (cs.drop size)).push offset event
    | .stop taken =>
      ⟨if taken.isEmpty then [] else [⟨offset, .data taken⟩], mode, offset + taken.length,
        (c :: cs).drop taken.length, none⟩
    | .drop => ⟨[], mode, offset + 1, cs, none⟩
    | .reject distance why => ⟨[], mode, offset, c :: cs, some (offset + distance, why)⟩
termination_by text => text.length
decreasing_by
  simp only [List.length_drop, List.length_cons]
  omega

/-- What the second pass leaves is data, except inside raw text. -/
def PassResult.remainder (r : PassResult) : List Located :=
  match r.mode, r.rest, r.rejection with
  | .markup, _ :: _, none => [⟨r.offset, .data r.rest⟩]
  | _, _, _ => []

/-- Reads a page. -/
def tokenize (text : List Char) : Page :=
  let first := pass false .markup 0 text
  match first.rejection with
  | some r => ⟨first.events, some r⟩
  | none =>
    let second := pass true first.mode first.offset first.rest
    ⟨first.events ++ second.events ++ second.remainder, second.rejection⟩

/-- The wording of a rejection. -/
def Rejection.message : Rejection → String
  | .missingSectionName shown => "expected name token at " ++ String.ofList (quoted shown)
  | .unknownSection name =>
    "unknown status keyword " ++ String.ofList (quoted name) ++ " in marked section"

end MessageCatalog.Markup
