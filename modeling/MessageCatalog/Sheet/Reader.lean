/-!
# MessageCatalog.Sheet.Reader -- tables as rows of fields

A field that starts with a quote goes on to the next quote that stands alone; two quotes in it are
one, and what follows the closing quote is added as it is. Line ends of all three kinds end a row
outside quotes and are part of the field inside. A quote that is open at the end of the text is
closed there. A line end that is also the delimiter delimits only behind a closing quote, and ends
the row as well.
-/

namespace MessageCatalog.Sheet

/-- The characters that structure a table. -/
structure Marks where
  delimiter : Char
  quote : Char
  deriving DecidableEq, Repr

/-- Where in a row the reader is. -/
inductive Place where
  /-- At the start of a row, after a carriage return or not. -/
  | rowStart (afterReturn : Bool)
  | fieldStart
  | inField
  | inQuotes
  /-- After a quote in a quoted field. -/
  | afterQuote
  deriving DecidableEq, Repr

/-- What has been read: rows, the fields of the current row and the characters of the current field,
all of them last first. -/
structure Reading where
  rows : List (List String)
  fields : List String
  field : List Char
  place : Place
  deriving DecidableEq, Repr

namespace Reading

/-- Nothing read. -/
def start : Reading := ⟨[], [], [], .rowStart false⟩

/-- One more character of the current field. -/
def add (r : Reading) (c : Char) (place : Place) : Reading :=
  { r with field := c :: r.field, place }

/-- The current field ends. -/
def endField (r : Reading) (place : Place) : Reading :=
  { r with fields := String.ofList r.field.reverse :: r.fields, field := [], place }

/-- The current row ends, after a carriage return or not. -/
def endRow (r : Reading) (afterReturn : Bool) : Reading :=
  ⟨r.fields.reverse :: r.rows, [], [], .rowStart afterReturn⟩

/-- Whether a character ends a line. -/
def isLineEnd (c : Char) : Bool := c == '\n' || c == '\r'

/-- Reads a character at the start of a field. -/
def stepFieldStart (marks : Marks) (r : Reading) (c : Char) : Reading :=
  if isLineEnd c then (r.endField .fieldStart).endRow (c == '\r')
  else if c == marks.quote then { r with place := .inQuotes }
  else if c == marks.delimiter then r.endField .fieldStart
  else r.add c .inField

/-- Reads a character. -/
def step (marks : Marks) (r : Reading) (c : Char) : Reading :=
  match r.place with
  | .rowStart afterReturn =>
    if c == '\n' && afterReturn then { r with place := .rowStart false }
    else if isLineEnd c then r.endRow (c == '\r')
    else r.stepFieldStart marks c
  | .fieldStart => r.stepFieldStart marks c
  | .inField =>
    if isLineEnd c then (r.endField .fieldStart).endRow (c == '\r')
    else if c == marks.delimiter then r.endField .fieldStart
    else r.add c .inField
  | .inQuotes => if c == marks.quote then { r with place := .afterQuote } else r.add c .inQuotes
  | .afterQuote =>
    if c == marks.quote then r.add c .inQuotes
    else if c == marks.delimiter then
      let ended := r.endField .fieldStart
      if isLineEnd c then (ended.endField .fieldStart).endRow (c == '\r') else ended
    else if isLineEnd c then (r.endField .fieldStart).endRow (c == '\r')
    else r.add c .inField

/-- All rows; one that the text ends in is a row too. -/
def finish (r : Reading) : List (List String) :=
  match r.place with
  | .rowStart _ => r.rows.reverse
  | _ => ((r.endField .fieldStart).endRow false).rows.reverse

end Reading

/-- The rows of a text. -/
def readRows (marks : Marks) (text : List Char) : List (List String) :=
  (text.foldl (Reading.step marks) .start).finish

/-- A row by the names of the first row. A name that comes twice means its last column, and one
without a cell means none. -/
structure Record where
  names : List String
  cells : List String
  deriving DecidableEq, Repr

/-- The cell under a name. -/
def Record.get? (record : Record) (name : String) : Option String :=
  match (record.names.zipIdx.filter fun (n, _) => n == name).getLast? with
  | some (_, index) => record.cells[index]?
  | none => none

/-- The rows of a text that are not blank, by the names of its first row. -/
def readRecords (marks : Marks) (text : List Char) : List Record :=
  match readRows marks text with
  | [] => []
  | names :: rows => (rows.filter fun cells => !cells.isEmpty).map fun cells => ⟨names, cells⟩

end MessageCatalog.Sheet
