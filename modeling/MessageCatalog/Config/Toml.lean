import MessageCatalog.Config.Setting
import MessageCatalog.Text.Character
import MessageCatalog.Text.Search

/-!
# MessageCatalog.Config.Toml -- TOML text to settings

A document is a sequence of lines: a header that opens a table, or a key with a value. What may
follow what is kept beside the values: a table is declared once, what a dotted key has opened is
declared with the next header, and what was written as one value can not be extended.

A text that is no document is refused without a reason, as nobody is told more than that.
-/

namespace MessageCatalog.Config.Toml

open MessageCatalog.Number MessageCatalog.Text

/-- A reading of something at the front of a text. -/
abbrev Reading := StateT (List Char) Option

/-! ## Characters -/

/-- Space and tab. -/
def isMargin (c : Char) : Bool := c == ' ' || c == '\t'

/-- The characters that no text and no comment may hold. -/
def isControl (c : Char) : Bool := (c.toNat < 0x20 && c != '\t') || c == '\x7f'

/-- The characters of a key without quotes. -/
def isBareKeyChar (c : Char) : Bool := isAsciiAlphanumeric c || c == '-' || c == '_'

/-- Takes the characters of a class. -/
def takeClass (inClass : Char → Bool) : Reading (List Char) := fun cs =>
  some (cs.takeWhile inClass, cs.dropWhile inClass)

/-- Takes a given text. -/
def literally (part : List Char) : Reading Unit := fun cs =>
  (after? part cs).map fun rest => ((), rest)

/-- The next character. -/
def next? : Reading (Option Char) := do return (← get).head?

/-- Takes one character. -/
def character : Reading Char := fun cs =>
  match cs with
  | [] => none
  | c :: rest => some (c, rest)

/-- Takes spaces and tabs. -/
def margin : Reading Unit := do let _ ← takeClass isMargin

/-- Takes a comment if there is one. -/
def comment : Reading Unit := do
  if (← next?) == some '#' then
    let taken ← takeClass (· != '\n')
    if taken.any isControl then failure

/-- Takes blanks, line ends and comments. -/
def filler : (fuel : Nat) → Reading Unit
  | 0 => pure ()
  | fuel + 1 => do
    let before ← takeClass fun c => isMargin c || c == '\n'
    let isComment := (← next?) == some '#'
    comment
    if !before.isEmpty || isComment then filler fuel

/-! ## Texts -/

/-- The characters that have a letter. -/
def simpleEscape? : Char → Option Char
  | 'b' => some '\x08'
  | 't' => some '\t'
  | 'n' => some '\n'
  | 'f' => some '\x0c'
  | 'r' => some '\r'
  | '"' => some '"'
  | '\\' => some '\\'
  | _ => none

/-- Takes a character that is written by its code point. -/
def codePoint (count : Nat) : Reading (List Char) := fun cs =>
  let digits := cs.take count
  let code := numeral 16 digits
  if digits.length == count && digits.all isHexDigit && code.isValidChar then
    some ([Char.ofNat code], cs.drop count)
  else none

/-- Takes an escape behind its backslash. In a text of several lines a backslash at the end of a
line takes the line end and all blanks behind it. -/
def escape (multiline : Bool) : Reading (List Char) := do
  match ← next? with
  | none => failure
  | some c =>
    if multiline && (isMargin c || c == '\n') then
      margin
      if (← get).isEmpty then return []
      literally ['\n']
      let _ ← takeClass fun c => isMargin c || c == '\n'
      return []
    let c ← character
    if c == 'u' then codePoint 4
    else if c == 'U' then codePoint 8
    else
      let e ← simpleEscape? c
      return [e]

/-- Takes the rest of a text in double quotes. -/
def basicRest (multiline : Bool) : (fuel : Nat) → Reading (List Char)
  | 0 => failure
  | fuel + 1 => do
    let cs ← get
    if multiline && startsWith ['"', '"', '"'] cs then
      literally ['"', '"', '"']
      return []
    let c ← character
    if c == '"' && !multiline then return []
    if c == '\\' then return (← escape multiline) ++ (← basicRest multiline fuel)
    if isControl c && !(multiline && c == '\n') then failure
    return c :: (← basicRest multiline fuel)

/-- Takes the rest of a text in single quotes, in which nothing is escaped. -/
def literalRest (multiline : Bool) (close : List Char) : Reading (List Char) := fun cs => do
  let (taken, rest) ← splitAtFirst close cs
  if taken.any fun c => isControl c && !(multiline && c == '\n') then none
  return (taken, rest)

/-- Up to two quotes in front of the closing three belong to the text. -/
def extraQuotes (quote : Char) : Reading (List Char) := do
  if (← next?) != some quote then return []
  let _ ← character
  if (← next?) != some quote then return [quote]
  let _ ← character
  return [quote, quote]

/-- Takes a text of one line. -/
def lineText (quote : Char) : Reading String := do
  literally [quote]
  let chars ←
    if quote == '"' then basicRest false ((← get).length + 1) else literalRest false [quote]
  return String.ofList chars

/-- Takes a text. -/
def text (quote : Char) : Reading String := do
  let opening := [quote, quote, quote]
  if startsWith opening (← get) then
    literally opening
    if (← next?) == some '\n' then literally ['\n']
    let chars ←
      if quote == '"' then basicRest true ((← get).length + 1) else literalRest true opening
    return String.ofList (chars ++ (← extraQuotes quote))
  lineText quote

/-! ## Numbers and moments -/

/-- Takes a number in a base with a letter. -/
def basedNumber (cs : List Char) : Option (Setting × List Char) :=
  let inBase (base : Nat) (isDigit : Char → Bool) (rest : List Char) :
      Option (Setting × List Char) :=
    let n := digitRun isDigit rest
    if n == 0 then none else some (.int (groupedNumeral base (rest.take n)), rest.drop n)
  match cs with
  | '0' :: 'x' :: rest => inBase 16 isHexDigit rest
  | '0' :: 'o' :: rest => inBase 8 isOctalDigit rest
  | '0' :: 'b' :: rest => inBase 2 (fun c => c == '0' || c == '1') rest
  | _ => none

/-- The digits of a fraction behind its point, and what follows. -/
def fractionOf (cs : List Char) : Option (List Char × List Char) :=
  match cs with
  | '.' :: rest =>
    let n := digitRun isAsciiDigit rest
    if n == 0 then none else some ((rest.take n).filter (· != '_'), rest.drop n)
  | _ => none

/-- The exponent of a number, and what follows. -/
def exponentOf (cs : List Char) : Option (Int × List Char) :=
  let signed (sign : Int) (rest : List Char) : Option (Int × List Char) :=
    let n := digitRun isAsciiDigit rest
    if n == 0 then none else some (sign * groupedNumeral 10 (rest.take n), rest.drop n)
  match cs with
  | c :: rest =>
    if c == 'e' || c == 'E' then
      match rest with
      | '-' :: rest => signed (-1) rest
      | '+' :: rest => signed 1 rest
      | _ => signed 1 rest
    else none
  | [] => none

/-- Takes a decimal number behind its sign. It is whole if it has neither fraction nor exponent. -/
def unsignedNumber (negative : Bool) (cs : List Char) : Option (Setting × List Char) :=
  let n := if cs.head? == some '0' then 1 else digitRun isAsciiDigit cs
  if n == 0 then none
  else
    let whole := (cs.take n).filter (· != '_')
    let fraction? := fractionOf (cs.drop n)
    let (fraction, rest) := fraction?.getD ([], cs.drop n)
    let exponent? := exponentOf rest
    let (exponent, rest) := exponent?.getD (0, rest)
    if fraction?.isNone && exponent?.isNone then
      some (.int (if negative then -(numeral 10 whole : Int) else numeral 10 whole), rest)
    else
      some (.real (Double.ofDecimal negative (numeral 10 (whole ++ fraction))
        (exponent - fraction.length)), rest)

/-- Takes a number, an infinity or the value that is no number. -/
def number : Reading Setting := fun cs =>
  let (negative, unsigned) := match cs with
    | '-' :: rest => (true, rest)
    | '+' :: rest => (false, rest)
    | _ => (false, cs)
  match basedNumber cs <|> unsignedNumber negative unsigned with
  | some found => some found
  | none =>
    match unsigned with
    | 'i' :: 'n' :: 'f' :: rest => some (.real (.infinite negative), rest)
    | 'n' :: 'a' :: 'n' :: rest => some (.real .nan, rest)
    | _ => none

/-- Takes two digits of a number between bounds. -/
def twoDigits (least most : Nat) : Reading (List Char) := fun cs =>
  let digits := cs.take 2
  let n := numeral 10 digits
  if digits.length == 2 && digits.all isAsciiDigit && least ≤ n && n ≤ most then
    some (digits, cs.drop 2)
  else none

/-- The days of a month. -/
def daysOfMonth (year month : Nat) : Nat :=
  if month == 2 then if year % 4 == 0 && (year % 100 != 0 || year % 400 == 0) then 29 else 28
  else if month == 4 || month == 6 || month == 9 || month == 11 then 30
  else 31

/-- Takes a time of day. Microseconds are what is shown of a fraction. -/
def timeOfDay : Reading (List Char) := do
  let hour ← twoDigits 0 23
  literally [':']
  let minute ← twoDigits 0 59
  literally [':']
  let second ← twoDigits 0 59
  let fraction ← (fun cs => match cs with
    | '.' :: d :: rest =>
      if isAsciiDigit d then some ((d :: rest).takeWhile isAsciiDigit, rest.dropWhile isAsciiDigit)
      else some ([], cs)
    | _ => some ([], cs) : Reading (List Char))
  let micros := (fraction ++ List.replicate 6 '0').take 6
  let shownMicros := if numeral 10 micros == 0 then [] else '.' :: micros
  return hour ++ [':'] ++ minute ++ [':'] ++ second ++ shownMicros

/-- Takes the distance of a time from the common one. -/
def zone : Reading (List Char) := do
  match ← next? with
  | some 'Z' | some 'z' =>
    let _ ← character
    return "+00:00".toList
  | some '+' | some '-' =>
    let sign ← character
    let hour ← twoDigits 0 23
    literally [':']
    let minute ← twoDigits 0 59
    let isZero := numeral 10 (hour ++ minute) == 0
    return (if isZero then '+' else sign) :: hour ++ [':'] ++ minute
  | _ => failure

/-- Takes a date with or without a time, and tells whether the month has the day. -/
def date : Reading (List Char × Bool) := do
  let year ← (fun cs =>
    let digits := cs.take 4
    if digits.length == 4 && digits.all isAsciiDigit then some (digits, cs.drop 4) else none :
      Reading (List Char))
  literally ['-']
  let month ← twoDigits 1 12
  literally ['-']
  let day ← twoDigits 1 31
  let exists' := numeral 10 year != 0 &&
    numeral 10 day ≤ daysOfMonth (numeral 10 year) (numeral 10 month)
  let shown := year ++ ['-'] ++ month ++ ['-'] ++ day
  (do
    let separator ← character
    if separator != 'T' && separator != 't' && separator != ' ' then failure
    let time ← timeOfDay
    let offset ← zone <|> pure []
    return (shown ++ [' '] ++ time ++ offset, exists')) <|>
    pure (shown, exists')

/-- Takes a moment or a number. What looks like a date has to be one. -/
def momentOrNumber : Reading Setting := fun cs =>
  match date cs with
  | some ((shown, exists'), rest) =>
    if exists' then some (.moment (String.ofList shown), rest) else none
  | none =>
    match timeOfDay cs with
    | some (shown, rest) => some (.moment (String.ofList shown), rest)
    | none => number cs

/-! ## Keys -/

/-- Takes one part of a key. -/
def keyPart : Reading String := do
  match ← next? with
  | some '"' => lineText '"'
  | some '\'' => lineText '\''
  | _ =>
    let chars ← takeClass isBareKeyChar
    if chars.isEmpty then failure
    return String.ofList chars

/-- Takes the parts of a key behind the first. -/
def moreKeyParts : (fuel : Nat) → Reading (List String)
  | 0 => failure
  | fuel + 1 => do
    margin
    if (← next?) != some '.' then return []
    let _ ← character
    margin
    let part ← keyPart
    return part :: (← moreKeyParts fuel)

/-- Takes a key: parts with dots between. -/
def key : Reading (List String) := do
  let first ← keyPart
  return first :: (← moreKeyParts ((← get).length + 1))

/-! ## Places in a table -/

/-- Changes the table at a path, which is made where it is missing. The last item of an array stands
for the array where arrays may be entered. -/
def changeAt (enterArrays : Bool) (change : Table → Option Table) :
    (path : List String) → Table → Option Table
  | [], table => change table
  | name :: path, table =>
    match table.lookup name with
    | none => do return table ++ [(name, .table (← changeAt enterArrays change path []))]
    | some (.table inner) => do
      return table.set name (.table (← changeAt enterArrays change path inner))
    | some (.array items) =>
      match enterArrays, items.getLast? with
      | true, some (.table inner) => do
        let inner ← changeAt enterArrays change path inner
        return table.set name (.array (items.dropLast ++ [.table inner]))
      | _, _ => none
    | some _ => none

/-- Puts a value at a new name. -/
def putNew (name : String) (value : Setting) (table : Table) : Option Table :=
  if (table.lookup name).isSome then none else some (table ++ [(name, value)])

/-- Adds an empty table to the array at a name. -/
def appendTable (name : String) (table : Table) : Option Table :=
  match table.lookup name with
  | none => some (table ++ [(name, .array [.table []])])
  | some (.array items) => some (table.set name (.array (items ++ [.table []])))
  | some _ => none

/-- Whether a value was written with brackets, so that nothing can be added to it later. -/
def isClosed : Setting → Bool
  | .array _ => true
  | .table _ => true
  | _ => false

/-! ## Values -/

mutual
/-- Takes a value. -/
def value : (fuel : Nat) → Reading Setting
  | 0 => failure
  | fuel + 1 => fun cs =>
    match cs with
    | '"' :: _ => (do return .text (← text '"') : Reading Setting) cs
    | '\'' :: _ => (do return .text (← text '\'') : Reading Setting) cs
    | 't' :: 'r' :: 'u' :: 'e' :: rest => some (.bool true, rest)
    | 'f' :: 'a' :: 'l' :: 's' :: 'e' :: rest => some (.bool false, rest)
    | '[' :: rest => (arrayRest fuel rest).map fun (items, rest) => (.array items, rest)
    | '\x7b' :: rest =>
      let rest := rest.dropWhile isMargin
      match rest with
      | '\x7d' :: rest => some (.table [], rest)
      | _ => (tableRest fuel [] [] rest).map fun (entries, rest) => (.table entries, rest)
    | _ => momentOrNumber cs

/-- Takes the items of an array and the closing bracket. -/
def arrayRest : (fuel : Nat) → List Char → Option (List Setting × List Char)
  | 0, _ => none
  | fuel + 1, cs => do
    let ((), cs) ← filler fuel cs
    match cs with
    | ']' :: rest => return ([], rest)
    | _ =>
      let (item, cs) ← value fuel cs
      let ((), cs) ← filler fuel cs
      match cs with
      | ']' :: rest => return ([item], rest)
      | ',' :: rest =>
        let (items, rest) ← arrayRest fuel rest
        return (item :: items, rest)
      | _ => none

/-- Takes the pairs of a table in braces and the closing brace, adding them to the entries so
far. -/
def tableRest : (fuel : Nat) → (entries : Table) → (closed : List (List String)) → List Char →
    Option (Table × List Char)
  | 0, _, _, _ => none
  | fuel + 1, entries, closed, cs => do
    let (path, cs) ← key cs
    let ((), cs) ← literally ['='] cs
    let (item, cs) ← value fuel (cs.dropWhile isMargin)
    if closed.any fun place => place.isPrefixOf path then none
    let entries ← changeAt false (putNew (path.getLast?.getD "") item) path.dropLast entries
    match cs.dropWhile isMargin with
    | '\x7d' :: rest => return (entries, rest)
    | ',' :: rest =>
      tableRest fuel entries (if isClosed item then path :: closed else closed)
        (rest.dropWhile isMargin)
    | _ => none
end

/-! ## Documents -/

/-- A document that is being read. -/
structure Document where
  entries : Table := []
  /-- The table that pairs belong to. -/
  header : List String := []
  /-- The places that can not be declared as tables any more. -/
  declared : List (List String) := []
  /-- The places that dotted keys have opened since the last header. -/
  opened : List (List String) := []
  /-- The places with values to which nothing can be added. -/
  closed : List (List String) := []
  deriving Repr, Inhabited

namespace Document

/-- Whether a place is part of a value to which nothing can be added. -/
def isClosedAt (d : Document) (path : List String) : Bool :=
  d.closed.any fun place => place.isPrefixOf path

/-- Declares what dotted keys have opened. -/
def settle (d : Document) : Document := { d with declared := d.opened ++ d.declared, opened := [] }

/-- Opens a table. -/
def openTable (d : Document) (path : List String) : Option Document := do
  if d.declared.contains path || d.isClosedAt path then none
  let entries ← changeAt true some path d.entries
  return { d with entries, header := path, declared := path :: d.declared }

/-- Opens a new item of an array of tables. What was declared in the item before is forgotten. -/
def openItem (d : Document) (path : List String) : Option Document := do
  if d.isClosedAt path then none
  let entries ← changeAt true (appendTable (path.getLast?.getD "")) path.dropLast d.entries
  let outside (place : List String) : Bool := !path.isPrefixOf place
  return { d with
    entries, header := path
    declared := path :: d.declared.filter outside
    closed := d.closed.filter outside }

/-- Adds a pair to the open table. -/
def addPair (d : Document) (path : List String) (item : Setting) : Option Document := do
  let passed := (List.range path.length).drop 1 |>.map fun n => d.header ++ path.take n
  if passed.any fun place => d.declared.contains place then none
  let parent := d.header ++ path.dropLast
  if !parent.isEmpty && d.isClosedAt parent then none
  let entries ← changeAt true (putNew (path.getLast?.getD "") item) parent d.entries
  return { d with
    entries
    opened := passed ++ d.opened
    closed := if isClosed item then (d.header ++ path) :: d.closed else d.closed }

end Document

/-- Takes what a line says, if it says anything. -/
def statement (d : Document) : Reading Document := do
  match ← get with
  | '[' :: '[' :: _ =>
    literally ['[', '[']
    margin
    let path ← key
    let d ← d.settle.openItem path
    literally [']', ']']
    margin
    return d
  | '[' :: _ =>
    literally ['[']
    margin
    let path ← key
    let d ← d.settle.openTable path
    literally [']']
    margin
    return d
  | '#' :: _ => return d
  | _ =>
    let path ← key
    literally ['=']
    margin
    let item ← value ((← get).length + 1)
    let d ← d.addPair path item
    margin
    return d

/-- Takes lines up to the end of the text. Every line takes at least its line end. -/
def lines : (fuel : Nat) → Document → Reading Document
  | 0, _ => failure
  | fuel + 1, d => do
    margin
    match ← next? with
    | none => return d
    | some '\n' =>
      let _ ← character
      lines fuel d
    | some _ =>
      let d ← statement d
      comment
      match ← next? with
      | none => return d
      | some c =>
        if c != '\n' then failure
        let _ ← character
        lines fuel d

/-- The tables of a document, `none` for a text that is none. -/
def read? (source : List Char) : Option Table :=
  let source := replaceAll ['\r', '\n'] ['\n'] source
  match lines (source.length + 1) {} source with
  | some (d, _) => some d.entries
  | none => none

end MessageCatalog.Config.Toml
