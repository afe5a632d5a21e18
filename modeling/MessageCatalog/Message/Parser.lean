import MessageCatalog.Locale.Rule
import MessageCatalog.Message.Basic
import MessageCatalog.Text.Cursor
import MessageCatalog.Text.Search

/-!
# MessageCatalog.Message.Parser -- the text of a message

    message  := (text | argument | "#")*
    argument := { name }
              | { name , select , cases }
              | { name , plural or selectordinal , offset:N cases }
              | { name , type }  or  { name , type , style }
    cases    := (key { message })+

White space may stand between the tokens of an argument. A number sign is a token only inside the
cases of a plural choice. Two apostrophes are one; an apostrophe directly before a brace, or before
a number sign that is a token, opens a literal that runs to the next single apostrophe; any other
apostrophe is text.

The rules read the characters that are left. A fault is its cause and the number of characters from
its place to the end; the outermost function turns that into a line and a column. The recursion is
bounded by the length of the text.
-/

namespace MessageCatalog.Message

open MessageCatalog.Text

/-! ## Faults -/

/-- The kinds of word that a rule may expect. -/
inductive WordKind where
  | argumentName
  | argumentType
  | caseKey
  deriving DecidableEq, Repr

/-- How a report calls a kind of word. -/
def WordKind.describe : WordKind → String
  | .argumentName => "argument name"
  | .argumentType => "argument type"
  | .caseKey => "case key"

/-- Why a text is not a message. -/
inductive Cause where
  /-- Another character than the expected one, or the end of the text. -/
  | expectedChar (expected : Char) (found : Option Char)
  | expectedWord (kind : WordKind) (found : Option Char)
  | unterminatedLiteral
  | invalidKey (key name : String) (categories : List String)
  | duplicateKey (key name : String)
  | missingOther (name : String)
  | expectedOffset
  | tooDeep (limit : Int)
  | unexpectedBrace
  deriving DecidableEq, Repr

/-- The categories of a list in their usual order, each in quotes. -/
def describeCategories (categories : List String) : String :=
  String.intercalate ", " ((Locale.Category.all.map Locale.Category.name).filterMap fun c =>
    if categories.contains c then some ("'" ++ c ++ "'") else none)

/-- The wording of a cause. -/
def Cause.message : Cause → String
  | .expectedChar expected none => s!"Expected '{expected}' but reached end of message"
  | .expectedChar expected (some found) => s!"Expected '{expected}' but found '{found}'"
  | .expectedWord kind none => s!"Expected {kind.describe} but found end of message"
  | .expectedWord kind (some found) => s!"Expected {kind.describe} but found '{found}'"
  | .unterminatedLiteral => "Unterminated quoted literal"
  | .invalidKey key name categories =>
    s!"Invalid key '{key}' for argument '{name}'. Valid plural keys for this locale are " ++
      describeCategories categories ++ ", and explicit keys like '=0'"
  | .duplicateKey key name => s!"Duplicate key '{key}' for argument '{name}'"
  | .missingOther name => s!"No 'other' form found in selector '{name}'"
  | .expectedOffset => "Expected offset value"
  | .tooDeep limit => s!"Maximum nesting depth ({limit}) exceeded"
  | .unexpectedBrace => "Unexpected '\x7d'"

/-- A cause and the number of characters from its place to the end of the text. -/
structure Fault where
  cause : Cause
  left : Nat
  deriving DecidableEq, Repr

/-- A fault where `rest` is still to be read. -/
def Fault.at (cause : Cause) (rest : List Char) : Fault := ⟨cause, rest.length⟩

/-- A text that is not a message: why, and where. -/
structure ParseError where
  cause : Cause
  position : Position
  deriving DecidableEq, Repr

/-- The wording of an error. -/
def ParseError.message (e : ParseError) : String := e.cause.message

/-! ## Settings -/

/-- What a text is parsed against: the categories that are keys of plural choices, and how deep
choices may nest. -/
structure Context where
  cardinal : List String
  ordinal : List String
  maxDepth : Int
  deriving DecidableEq, Repr

/-- The usual limit to nesting. -/
def defaultMaxDepth : Int := 100

/-- A context in which `other` is a category of both kinds. -/
def Context.ofCategories (cardinal ordinal : List String) (maxDepth : Int) : Context :=
  ⟨"other" :: cardinal, "other" :: ordinal, maxDepth⟩

/-! ## Tokens -/

/-- Skips white space. -/
def skipBlanks (text : List Char) : List Char := text.dropWhile isBlank

/-- Reads one character that has to follow. -/
def expect (c : Char) (text : List Char) : Except Fault (List Char) :=
  match text with
  | [] => .error ⟨.expectedChar c none, 0⟩
  | d :: rest => if d == c then .ok rest else .error (.at (.expectedChar c (some d)) text)

/-- Whether a character belongs to a word: no white space and none of the characters of the
notation. -/
def isWordCharacter (c : Char) : Bool :=
  !(isBlank c || c == '\x7b' || c == '\x7d' || c == ',' || c == '\'' || c == '#')

/-- Reads a name, a type or a key: the longest word that starts here. -/
def readWord (kind : WordKind) (text : List Char) : Except Fault (String × List Char) :=
  let word := text.takeWhile isWordCharacter
  let rest := text.dropWhile isWordCharacter
  if word.isEmpty then .error (.at (.expectedWord kind rest.head?) rest)
  else .ok (String.ofList word, rest)

/-! ## Text -/

/-- Whether an apostrophe before this character opens a literal. -/
def opensLiteral (inPlural : Bool) (c : Char) : Bool :=
  c == '\x7b' || c == '\x7d' || (c == '#' && inPlural)

/-- Whether text ends before this character. -/
def endsText (inPlural : Bool) (c : Char) : Bool := opensLiteral inPlural c

/-- Reads the rest of a literal through its closing apostrophe; two apostrophes are one. -/
def readLiteral : List Char → Option (List Char × List Char)
  | [] => none
  | '\'' :: '\'' :: rest => (readLiteral rest).map fun (chars, rest) => ('\'' :: chars, rest)
  | '\'' :: rest => some ([], rest)
  | c :: rest => (readLiteral rest).map fun (chars, rest) => (c :: chars, rest)

/-- A literal ends inside the text. -/
theorem readLiteral_length {text chars rest : List Char}
    (h : readLiteral text = some (chars, rest)) : rest.length < text.length := by
  fun_induction readLiteral text generalizing chars rest with
  | case1 => simp at h
  | case2 text ih =>
    obtain ⟨⟨cs, r⟩, hr, he⟩ := Option.map_eq_some_iff.1 h
    simp only [Prod.mk.injEq] at he
    obtain ⟨-, rfl⟩ := he
    have := ih hr
    simp only [List.length_cons]
    omega
  | case3 => simp only [Option.some.injEq, Prod.mk.injEq] at h; simp [h.2.symm]
  | case4 c text _ _ ih =>
    obtain ⟨⟨cs, r⟩, hr, he⟩ := Option.map_eq_some_iff.1 h
    simp only [Prod.mk.injEq] at he
    obtain ⟨-, rfl⟩ := he
    have := ih hr
    simp only [List.length_cons]
    omega

/-- Puts characters in front of text that has been read. -/
def prepend (chars : List Char) (read : Except Fault (List Char × List Char)) :
    Except Fault (List Char × List Char) :=
  match read with
  | .ok (others, rest) => .ok (chars ++ others, rest)
  | .error fault => .error fault

/-- Reads text up to the next brace, the next number sign that is a token, or the end. -/
def readText (inPlural : Bool) : List Char → Except Fault (List Char × List Char)
  | [] => .ok ([], [])
  | '\'' :: '\'' :: rest => prepend ['\''] (readText inPlural rest)
  | ['\''] => .ok (['\''], [])
  | '\'' :: c :: rest =>
    if opensLiteral inPlural c then
      match _h : readLiteral (c :: rest) with
      | none => .error (.at .unterminatedLiteral ('\'' :: c :: rest))
      | some (chars, rest') => prepend chars (readText inPlural rest')
    else prepend ['\''] (readText inPlural (c :: rest))
  | c :: rest =>
    if endsText inPlural c then .ok ([], c :: rest) else prepend [c] (readText inPlural rest)
termination_by text => text.length
decreasing_by
  all_goals simp only [List.length_cons]
  · omega
  · have := readLiteral_length _h
    simp only [List.length_cons] at this
    omega
  · omega
  · omega

/-- Puts text in front of a message; empty text is no element. -/
def withText (chars : List Char) (message : Message) : Message :=
  if chars.isEmpty then message else .text (String.ofList chars) :: message

/-! ## Keys and offsets -/

/-- Whether a key names a number: an equals sign, digits and possibly a fraction. -/
def isExactKey (key : String) : Bool :=
  match key.toList with
  | '=' :: digits =>
    let rest := digits.dropWhile isDecimalDigit
    digits.head?.any isDecimalDigit &&
      match rest with
      | [] => true
      | '.' :: fraction => !fraction.isEmpty && fraction.all isDecimalDigit
      | _ => false
  | _ => false

/-- Checks the key of a case. A choice without categories takes any key once. -/
def checkKey (categories : Option (List String)) (name : String) (seen : List String)
    (key : String) : Except Cause Unit :=
  match categories with
  | some valid =>
    if valid.contains key || isExactKey key then
      if seen.contains key then .error (.duplicateKey key name) else .ok ()
    else .error (.invalidKey key name valid)
  | none => if seen.contains key then .error (.duplicateKey key name) else .ok ()

/-- The word before an offset. -/
def offsetMark : List Char := "offset:".toList

/-- Reads the offset of a plural choice; without its mark it is zero. -/
def readOffset (text : List Char) : Except Fault (Nat × List Char) :=
  match after? offsetMark text with
  | none => .ok (0, text)
  | some rest =>
    let digits := skipBlanks rest
    if (digits.takeWhile isAsciiDigit).isEmpty then .error (.at .expectedOffset digits)
    else
      .ok (numeral 10 (digits.takeWhile isAsciiDigit), skipBlanks (digits.dropWhile isAsciiDigit))

/-- Reads the style of a format, if there is one: everything up to the next brace without the white
space around it. An empty style is none. -/
def readStyle (text : List Char) : Option String × List Char :=
  match text with
  | ',' :: rest =>
    let isStyle (c : Char) : Bool := c != '\x7b' && c != '\x7d'
    let style := trim isBlank (rest.takeWhile isStyle)
    (if style.isEmpty then none else some (String.ofList style), rest.dropWhile isStyle)
  | _ => (none, text)

/-! ## Rules -/

mutual
/-- Reads a message up to a closing brace or the end. -/
def parseElements (context : Context) : (fuel depth : Nat) → (inPlural : Bool) → List Char →
    Except Fault (Message × List Char)
  | 0, _, _, text => .error (.at .unexpectedBrace text)
  | fuel + 1, depth, inPlural, text =>
    match readText inPlural text with
    | .error fault => .error fault
    | .ok (chars, rest) =>
      match rest with
      | '\x7b' :: _ =>
        match parseArgument context fuel depth inPlural rest with
        | .error fault => .error fault
        | .ok (element, rest) =>
          match parseElements context fuel depth inPlural rest with
          | .error fault => .error fault
          | .ok (others, rest) => .ok (withText chars (element :: others), rest)
      | '#' :: rest =>
        match parseElements context fuel depth inPlural rest with
        | .error fault => .error fault
        | .ok (others, rest) => .ok (withText chars (.number :: others), rest)
      | _ => .ok (withText chars [], rest)

/-- Reads an argument from its opening brace. -/
def parseArgument (context : Context) : (fuel depth : Nat) → (inPlural : Bool) → List Char →
    Except Fault (Element × List Char)
  | 0, _, _, text => .error (.at .unexpectedBrace text)
  | fuel + 1, depth, inPlural, text =>
    match readWord .argumentName (skipBlanks (text.drop 1)) with
    | .error fault => .error fault
    | .ok (name, rest) =>
      match skipBlanks rest with
      | '\x7d' :: rest => .ok (.argument name, rest)
      | rest =>
        match expect ',' rest with
        | .error fault => .error fault
        | .ok rest =>
          match readWord .argumentType (skipBlanks rest) with
          | .error fault => .error fault
          | .ok (kind, rest) =>
            if kind == "select" || kind == "plural" || kind == "selectordinal" then
              if context.maxDepth ≤ depth then .error (.at (.tooDeep context.maxDepth) text)
              else
                match expect ',' (skipBlanks rest) with
                | .error fault => .error fault
                | .ok rest =>
                  parseChoice context fuel depth inPlural name kind (skipBlanks rest)
            else
              let (style, rest) := readStyle (skipBlanks rest)
              match expect '\x7d' rest with
              | .error fault => .error fault
              | .ok rest => .ok (.format name kind style, rest)

/-- Reads the cases of a choice and its closing brace. -/
def parseChoice (context : Context) : (fuel depth : Nat) → (inPlural : Bool) →
    (name kind : String) → List Char → Except Fault (Element × List Char)
  | 0, _, _, _, _, text => .error (.at .unexpectedBrace text)
  | fuel + 1, depth, inPlural, name, kind, text =>
    if kind == "select" then
      match parseCases context fuel (depth + 1) inPlural name none [] text with
      | .error fault => .error fault
      | .ok (cases, rest) =>
        match expect '\x7d' rest with
        | .error fault => .error fault
        | .ok rest => .ok (.select name cases, rest)
    else
      match readOffset text with
      | .error fault => .error fault
      | .ok (offset, rest) =>
        let ordinal := kind == "selectordinal"
        let categories := if ordinal then context.ordinal else context.cardinal
        match parseCases context fuel (depth + 1) true name (some categories) [] rest with
        | .error fault => .error fault
        | .ok (cases, rest) =>
          match expect '\x7d' rest with
          | .error fault => .error fault
          | .ok rest => .ok (.plural name offset ordinal cases, rest)

/-- Reads cases up to a closing brace or the end; `seen` are the keys before them. -/
def parseCases (context : Context) : (fuel depth : Nat) → (inPlural : Bool) → (name : String) →
    (categories : Option (List String)) → (seen : List String) → List Char →
    Except Fault (Cases × List Char)
  | 0, _, _, _, _, _, text => .error (.at .unexpectedBrace text)
  | fuel + 1, depth, inPlural, name, categories, seen, text =>
    let start := skipBlanks text
    if start.isEmpty || start.head? == some '\x7d' then
      if seen.contains "other" then .ok ([], start)
      else .error (.at (.missingOther name) start)
    else
      match readWord .caseKey start with
      | .error fault => .error fault
      | .ok (key, rest) =>
        match checkKey categories name seen key with
        | .error cause => .error (.at cause start)
        | .ok () =>
          match expect '\x7b' (skipBlanks rest) with
          | .error fault => .error fault
          | .ok rest =>
            match parseElements context fuel depth inPlural rest with
            | .error fault => .error fault
            | .ok (body, rest) =>
              match expect '\x7d' rest with
              | .error fault => .error fault
              | .ok rest =>
                match parseCases context fuel depth inPlural name categories (key :: seen) rest with
                | .error fault => .error fault
                | .ok (others, rest) => .ok ((key, body) :: others, rest)
end

/-! ## Whole texts -/

/-- Parses a whole text; a closing brace without an opening one is a fault. -/
def parseText (context : Context) (text : List Char) : Except Fault Message :=
  match parseElements context (3 * text.length + 3) 0 false text with
  | .error fault => .error fault
  | .ok (message, []) => .ok message
  | .ok (_, rest) => .error (.at .unexpectedBrace rest)

/-- Parses a whole text, and says where it is not a message. -/
def parse (context : Context) (text : List Char) : Except ParseError Message :=
  match parseText context text with
  | .ok message => .ok message
  | .error fault => .error ⟨fault.cause, Position.at text (text.length - fault.left)⟩

end MessageCatalog.Message
