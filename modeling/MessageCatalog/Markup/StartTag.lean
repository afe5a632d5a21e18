import MessageCatalog.Markup.Event
import MessageCatalog.Markup.Reference

/-!
# MessageCatalog.Markup.StartTag -- start tags and their attributes

A start tag is a name, attributes and a closing bracket. Attributes stand behind white space,
slashes or a quoted value. A value is quoted or runs to the next white space or bracket; a value
whose closing quote is missing is not quoted, and what becomes of it depends on what stands before
its quote.
-/

namespace MessageCatalog.Markup

open MessageCatalog.Text

/-! ## Names and separators -/

/-- A character of the name of an element, after its first letter. -/
def isTagNameCharacter (c : Char) : Bool :=
  !(c == '\t' || c == '\n' || c == '\r' || c == '\x0c' || c == ' ' || c == '/' || c == '>' ||
    c == '\x00')

/-- A name in small letters. -/
def nameOf (text : List Char) : String := String.ofList (lowercase text)

/-- White space, and slashes that are not the end of the tag. -/
def skipSeparators : List Char → List Char
  | [] => []
  | '/' :: rest =>
    match rest with
    | '>' :: _ => '/' :: rest
    | _ => skipSeparators rest
  | c :: rest => if isBlank c then skipSeparators rest else c :: rest

/-- Whether an attribute may start directly after a character. -/
def mayPrecedeAttribute (c : Char) : Bool := c == '\'' || c == '"' || c == '/' || isBlank c

/-- The first character of the name of an attribute. -/
def startsAttribute (c : Char) : Bool := !(isBlank c || c == '/' || c == '>')

/-- A later character of the name of an attribute. -/
def continuesAttribute (c : Char) : Bool := !(isBlank c || c == '/' || c == '=' || c == '>')

/-! ## Values -/

/-- A character of a value without quotes. -/
def isBareCharacter (c : Char) : Bool := !(isBlank c || c == '>')

/-- The text inside quotes and what follows the closing quote, for a text that starts after the
opening one. -/
def closeQuote (quote : Char) (text : List Char) : Option (List Char × List Char) :=
  match text.dropWhile (· != quote) with
  | [] => none
  | _ :: rest => some (text.takeWhile (· != quote), rest)

/-- A value without quotes and what follows it. -/
def bareValue (text : List Char) : List Char × List Char :=
  (text.takeWhile isBareCharacter, text.dropWhile isBareCharacter)

/-- Reads the equals signs and the value after the name of an attribute: the value and what follows,
or `none` when there is no value. Where a closing quote is missing, the value is empty if white
space stands before the quote, and otherwise starts at the last of several equals signs. -/
def readValue (text : List Char) : Option (List Char × List Char) :=
  let signs := text.dropWhile isBlank
  match signs with
  | '=' :: _ =>
    let spaced := signs.dropWhile (· == '=')
    let value := spaced.dropWhile isBlank
    match value with
    | [] => some ([], [])
    | c :: rest =>
      if c == '\'' || c == '"' then
        match closeQuote c rest with
        | some result => some result
        | none =>
          if value.length < spaced.length then some ([], value)
          else if 2 ≤ signs.length - spaced.length then some (bareValue ('=' :: spaced))
          else none
      else some (bareValue value)
  | _ => none

/-! ## Attributes -/

/-- The last character before a point of a text, given where the text started and the character
before that. -/
def lastBefore (before : Char) (text rest : List Char) : Char :=
  (text.take (text.length - rest.length)).getLast?.getD before

/-- Reads one attribute and the separators after it: the attribute and what follows. -/
def readAttribute (before : Char) (text : List Char) : Option (Attribute × List Char) :=
  match text with
  | [] => none
  | c :: cs =>
    if mayPrecedeAttribute before && startsAttribute c then
      let name := nameOf (c :: cs.takeWhile continuesAttribute)
      let rest := cs.dropWhile continuesAttribute
      match readValue rest with
      | some (value, rest) => some (⟨name, some (resolve value)⟩, skipSeparators rest)
      | none => some (⟨name, none⟩, skipSeparators rest)
    else none

/-- Reads attributes for as long as there are any. Every attribute takes at least one character,
which is what `fuel` counts. -/
def readAttributes : (fuel : Nat) → (before : Char) → List Char → List Attribute × List Char
  | 0, _, text => ([], text)
  | fuel + 1, before, text =>
    match readAttribute before text with
    | none => ([], text)
    | some (first, rest) =>
      let (others, rest') := readAttributes fuel (lastBefore before text rest) rest
      (first :: others, rest')

/-! ## Tags -/

/-- What follows the opening bracket of a start tag. -/
inductive StartTag where
  /-- A complete tag and the text after it. -/
  | complete (name : String) (attributes : List Attribute) (selfClosing : Bool) (rest : List Char)
  /-- The text ends, or goes wrong in a place where more text could mend it. -/
  | incomplete
  /-- No tag: the text up to `rest` is data. -/
  | malformed (rest : List Char)
  deriving DecidableEq, Repr

/-- Reads a start tag from its first letter on. -/
def readStartTag (text : List Char) : StartTag :=
  let nameText := text.takeWhile isTagNameCharacter
  let afterName := text.dropWhile isTagNameCharacter
  let separated := skipSeparators afterName
  let before := (nameText ++ afterName.take (afterName.length - separated.length)).getLast?.getD '<'
  let (attributes, rest) := readAttributes separated.length before separated
  match rest with
  | '>' :: rest => .complete (nameOf nameText) attributes false rest
  | '/' :: '>' :: rest => .complete (nameOf nameText) attributes true rest
  | [] => .incomplete
  | c :: _ => if isAsciiLetter c || c == '=' || c == '/' then .incomplete else .malformed rest

end MessageCatalog.Markup
