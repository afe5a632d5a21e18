import MessageCatalog.Message.Parser
import MessageCatalog.Text.Cursor

/-!
# MessageCatalog.Message.Walk -- messages read with a cursor

The rules of messages over a cursor. A rule starts where the cursor stands and gives the cursor
behind what it has read; a fault is reported at the line and column of the cursor where it is found,
or of one that the rule has kept. Text and the elements behind it are gathered character by
character, and a run of text becomes an element when something else begins.
-/

namespace MessageCatalog.Message

open MessageCatalog.Text

/-- Reports a fault at a cursor. -/
def faultAt {α : Type} (cause : Cause) (c : Cursor) : Walk ParseError α :=
  .error (.fault ⟨cause, c.position⟩)

/-! ## Tokens -/

/-- The cursor behind one character that has to follow. -/
def expectAt (char : Char) (c : Cursor) : Walk ParseError Cursor := do
  if c.atEnd then faultAt (.expectedChar char none) c
  else
    let found ← c.look
    if found != char then faultAt (.expectedChar char (some found)) c
    else return c.advance 1

/-- Walks over a name, a type or a key: the longest word that starts here. -/
def wordAt (kind : WordKind) (c : Cursor) : Walk ParseError (String × Cursor) := do
  let behind ← c.passWhile isWordCharacter
  if behind.offset == c.offset then
    if behind.atEnd then faultAt (.expectedWord kind none) behind
    else faultAt (.expectedWord kind (some (← behind.look))) behind
  else return (String.ofList (behind.sliceFrom c.offset), behind)

/-! ## Text -/

/-- Walks over the rest of a literal through its closing apostrophe, `read` being its characters so
far. A literal without an end is reported where it starts. -/
def literalAt (start c : Cursor) (read : List Char) : Walk ParseError (List Char × Cursor) :=
  if _more : c.atEnd then faultAt .unterminatedLiteral start
  else do
    let char ← c.look
    if char == '\'' then
      if c.peek? 1 == some '\'' then literalAt start (c.advance 2) (read ++ ['\''])
      else return (read, c.advance 1)
    else literalAt start (c.advance 1) (read ++ [char])
termination_by c.source.length - c.offset
decreasing_by
  · exact Cursor.advance_lt _more 1
  · exact Cursor.advance_lt _more 0

/-- Walks over the text that an apostrophe starts. -/
def quotedAt (inPlural : Bool) (c : Cursor) : Walk ParseError (List Char × Cursor) :=
  match c.peek? 1 with
  | none => .ok (['\''], c.advance 1)
  | some following =>
    if following == '\'' then .ok (['\''], c.advance 2)
    else if opensLiteral inPlural following then literalAt c (c.advance 1) []
    else .ok (['\''], c.advance 1)

/-- A message with the text behind it. -/
def flush (done : Message) (text : List Char) : Message := done ++ withText text []

/-! ## Keys and offsets -/

/-- Walks over the offset of a plural choice; without its mark it is zero. -/
def offsetAt (c : Cursor) : Walk ParseError (Nat × Cursor) := do
  if c.sliceAhead offsetMark.length != offsetMark then return (0, c)
  else
    let start := (c.advance offsetMark.length).skipBlanks
    let behind ← start.passWhile isAsciiDigit
    if behind.offset == start.offset then faultAt .expectedOffset behind
    else return (numeral 10 (behind.sliceFrom start.offset), behind.skipBlanks)

/-- Walks over the style of a format, if there is one. An empty style is none. -/
def styleAt (c : Cursor) : Walk ParseError (Option String × Cursor) := do
  if ← c.sees (· == ',') then
    let start := c.advance 1
    let behind ← start.passWhile fun char => char != '\x7b' && char != '\x7d'
    let style := trim isBlank (behind.sliceFrom start.offset)
    return (if style.isEmpty then none else some (String.ofList style), behind)
  else return (none, c)

/-! ## Rules -/

mutual
/-- Walks over a message up to a closing brace or the end. The elements in front of the cursor are
`done`, and behind them stands `text`. -/
def elementsAt (context : Context) : (steps depth : Nat) → (inPlural : Bool) → Cursor →
    (done : Message) → (text : List Char) → Walk ParseError (Message × Cursor)
  | 0, _, _, _, _, _ => .error .outOfSteps
  | steps + 1, depth, inPlural, c, done, text =>
    if c.atEnd then .ok (flush done text, c)
    else do
      let char ← c.look
      if char == '\x7d' then return (flush done text, c)
      else if char == '\x7b' then
        let (element, behind) ← argumentAt context steps depth inPlural c
        elementsAt context steps depth inPlural behind (flush done text ++ [element]) []
      else if char == '#' && inPlural then
        elementsAt context steps depth inPlural (c.advance 1) (flush done text ++ [.number]) []
      else if char == '\'' then
        let (quoted, behind) ← quotedAt inPlural c
        elementsAt context steps depth inPlural behind done (text ++ quoted)
      else elementsAt context steps depth inPlural (c.advance 1) done (text ++ [char])

/-- Walks over an argument from its opening brace. -/
def argumentAt (context : Context) : (steps depth : Nat) → (inPlural : Bool) → Cursor →
    Walk ParseError (Element × Cursor)
  | 0, _, _, _ => .error .outOfSteps
  | steps + 1, depth, inPlural, opening => do
    let (name, c) ← wordAt .argumentName (opening.advance 1).skipBlanks
    let c := c.skipBlanks
    if ← c.sees (· == '\x7d') then return (.argument name, c.advance 1)
    else
      let c ← expectAt ',' c
      let (kind, c) ← wordAt .argumentType c.skipBlanks
      let c := c.skipBlanks
      if kind == "select" || kind == "plural" || kind == "selectordinal" then
        if context.maxDepth ≤ depth then faultAt (.tooDeep context.maxDepth) opening
        else
          let c ← expectAt ',' c
          choiceAt context steps depth inPlural name kind c.skipBlanks
      else
        let (style, c) ← styleAt c
        let c ← expectAt '\x7d' c
        return (.format name kind style, c)

/-- Walks over the cases of a choice and its closing brace. -/
def choiceAt (context : Context) : (steps depth : Nat) → (inPlural : Bool) →
    (name kind : String) → Cursor → Walk ParseError (Element × Cursor)
  | 0, _, _, _, _, _ => .error .outOfSteps
  | steps + 1, depth, inPlural, name, kind, c => do
    if kind == "select" then
      let (cases, c) ← casesAt context steps (depth + 1) inPlural name none [] c []
      let c ← expectAt '\x7d' c
      return (.select name cases, c)
    else
      let ordinal := kind == "selectordinal"
      let (offset, c) ← offsetAt c
      let categories := if ordinal then context.ordinal else context.cardinal
      let (cases, c) ← casesAt context steps (depth + 1) true name (some categories) [] c []
      let c ← expectAt '\x7d' c
      return (.plural name offset ordinal cases, c)

/-- Walks over cases up to a closing brace or the end. The cases in front of the cursor are `done`,
and their keys are `seen`. -/
def casesAt (context : Context) : (steps depth : Nat) → (inPlural : Bool) → (name : String) →
    (categories : Option (List String)) → (seen : List String) → Cursor → (done : Cases) →
    Walk ParseError (Cases × Cursor)
  | 0, _, _, _, _, _, _, _ => .error .outOfSteps
  | steps + 1, depth, inPlural, name, categories, seen, c, done => do
    let start := c.skipBlanks
    let closed ← start.sees (· == '\x7d')
    if start.atEnd || closed then
      if seen.contains "other" then return (done, start)
      else faultAt (.missingOther name) start
    else
      let (key, c) ← wordAt .caseKey start
      match checkKey categories name seen key with
      | .error cause => faultAt cause start
      | .ok () =>
        let c ← expectAt '\x7b' c.skipBlanks
        let (body, c) ← elementsAt context steps depth inPlural c [] []
        let c ← expectAt '\x7d' c
        casesAt context steps depth inPlural name categories (key :: seen) c (done ++ [(key, body)])
end

/-! ## Whole texts -/

/-- Walks over a whole text; a closing brace without an opening one is a fault. No rule takes more
than three steps for a character. -/
def parseAt (context : Context) (text : List Char) : Walk ParseError Message := do
  let (message, c) ← elementsAt context (3 * text.length + 3) 0 false (.ofText text) [] []
  if c.atEnd then return message
  else faultAt .unexpectedBrace c

end MessageCatalog.Message
