import MessageCatalog.Text.Character

/-!
# MessageCatalog.Text.Cursor -- where in a text something stands

Positions are counted in characters. Lines end at a line feed and at nothing else, so that a
carriage return is a character of its line.

A cursor is a text and an offset into it. It never changes; moving gives another cursor over the
same text, so a reader can keep the place where a construct started and report it later.

A reader may hold a cursor over the whole text in place of the characters that are left. It asks for
the character under the cursor, and it is for the reader to ask only where there is one: behind the
last character the question has no answer, and the walk ends in a way that no notation reports.
-/

namespace MessageCatalog.Text

/-! ## Positions -/

/-- A line and a column, both counted from one. -/
structure Position where
  line : Nat
  column : Nat
  deriving DecidableEq, Repr, Inhabited

/-- The start of a text. -/
def Position.start : Position := ⟨1, 1⟩

/-- The position after one more character. -/
def Position.next (p : Position) (c : Char) : Position :=
  if c == '\n' then ⟨p.line + 1, 1⟩ else ⟨p.line, p.column + 1⟩

/-- The position reached after reading a text from its start. -/
def Position.after (before : List Char) : Position := before.foldl Position.next Position.start

/-- The position `offset` characters into a text. -/
def Position.at (text : List Char) (offset : Nat) : Position := Position.after (text.take offset)

/-! ## Cursors -/

/-- A read position in a text. -/
structure Cursor where
  source : List Char
  offset : Nat
  deriving DecidableEq, Repr

namespace Cursor

/-- The cursor before the first character. -/
def ofText (source : List Char) : Cursor := ⟨source, 0⟩

/-- The text from the cursor on. -/
def ahead (c : Cursor) : List Char := c.source.drop c.offset

/-- Whether every character has been read. -/
def atEnd (c : Cursor) : Bool := c.source.length ≤ c.offset

/-- The character some places ahead, `none` past the end. -/
def peek? (c : Cursor) (places : Nat) : Option Char := c.source[c.offset + places]?

/-- The character under the cursor, `none` at the end. -/
def current? (c : Cursor) : Option Char := c.peek? 0

/-- The cursor some characters further on, never past the end. -/
def advance (c : Cursor) (count : Nat) : Cursor :=
  { c with offset := min (c.offset + count) c.source.length }

/-- Up to `count` characters from the cursor on. -/
def sliceAhead (c : Cursor) (count : Nat) : List Char := c.ahead.take count

/-- The text between an earlier offset and the cursor. -/
def sliceFrom (c : Cursor) (start : Nat) : List Char := (c.source.take c.offset).drop start

/-- The cursor at the next character that is not blank, or at the end. -/
def skipBlanks (c : Cursor) : Cursor :=
  { c with offset := c.offset + (c.ahead.takeWhile isBlank).length }

/-- The line and column of the cursor. Past the end, columns go on counting. -/
def position (c : Cursor) : Position :=
  let reached := Position.at c.source c.offset
  { reached with column := reached.column + (c.offset - c.source.length) }

/-- A text that should have had a character under the cursor. -/
structure EndOfText where
  offset : Nat
  deriving DecidableEq, Repr

/-- The report of a missing character. -/
def EndOfText.message (e : EndOfText) : String :=
  s!"No character at end of input (position {e.offset})"

/-- The character under the cursor, or a report that there is none. -/
def current (c : Cursor) : Except EndOfText Char :=
  match c.current? with
  | some ch => .ok ch
  | none => .error ⟨c.offset⟩

end Cursor

/-! ## Walks -/

/-- Why a walk over a text ends without a result. -/
inductive Stop (ε : Type) where
  /-- The text breaks the notation. -/
  | fault (reason : ε)
  /-- A character was asked for behind the last one. -/
  | endOfText (report : Cursor.EndOfText)
  /-- The walk took all the steps that it was given. -/
  | outOfSteps
  deriving DecidableEq, Repr

/-- What a walk over a text gives. -/
abbrev Walk (ε : Type) : Type → Type := Except (Stop ε)

namespace Cursor

variable {ε : Type}

/-- The character under the cursor. -/
def look (c : Cursor) : Walk ε Char := c.current.mapError Stop.endOfText

/-- Whether a character of a class stands under the cursor; at the end none does. -/
def sees (inClass : Char → Bool) (c : Cursor) : Walk ε Bool :=
  if c.atEnd then .ok false else c.look.map inClass

/-- A cursor that moves on has less before it. -/
theorem advance_lt {c : Cursor} (more : ¬c.atEnd = true) (count : Nat) :
    c.source.length - (c.advance (count + 1)).offset < c.source.length - c.offset := by
  simp only [atEnd, decide_eq_true_eq] at more
  simp only [advance]
  omega

/-- The cursor behind the characters of a class that stand next. -/
def passWhile (inClass : Char → Bool) (c : Cursor) : Walk ε Cursor :=
  if _more : c.atEnd then .ok c
  else do
    if inClass (← c.look) then passWhile inClass (c.advance 1) else return c
termination_by c.source.length - c.offset
decreasing_by exact advance_lt _more 0

end Cursor

end MessageCatalog.Text
