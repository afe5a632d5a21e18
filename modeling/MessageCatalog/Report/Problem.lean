import MessageCatalog.Report.Log
import MessageCatalog.Text.Cursor
import MessageCatalog.Text.Search

/-!
# MessageCatalog.Report.Problem -- the report of a message that cannot be used

A message with a fault is reported and skipped. The report names the kind of the fault, what is
wrong, and where: the place inside the text, the key, the locale and the file. What is not known is
shown as such, and a report has a line for everything.
-/

namespace MessageCatalog.Report

open MessageCatalog.Text

/-- The kinds of faults that are reported. -/
inductive Kind where
  | general
  | configuration
  | storeFormat
  | literal
  | source
  | markup
  | message
  | script
  deriving DecidableEq, Repr

namespace Kind

/-- All kinds. -/
def all : List Kind :=
  [.general, .configuration, .storeFormat, .literal, .source, .markup, .message, .script]

/-- The name of a kind in reports. -/
def name : Kind → String
  | .general => "LocalesError"
  | .configuration => "LocalesConfigError"
  | .storeFormat => "StoreFormatError"
  | .literal => "LiteralDecodeError"
  | .source => "SourceSyntaxError"
  | .markup => "HtmlSyntaxError"
  | .message => "MessageFormatSyntaxError"
  | .script => "ScriptSyntaxError"

/-- The kind of a name. -/
def ofName? (name : String) : Option Kind := all.find? fun kind => kind.name == name

/-- Whether a fault of the kind has a place in a text. -/
def hasPlace : Kind → Bool
  | .source => true
  | .markup => true
  | .message => true
  | .script => true
  | _ => false

end Kind

/-- A fault with what is known about it. -/
structure Problem where
  kind : Kind
  message : String
  line : Option Int
  column : Option Int
  deriving DecidableEq, Repr

/-- A fault at a position. -/
def Problem.at (kind : Kind) (message : String) (position : Option Position) : Problem :=
  ⟨kind, message, position.map fun p => (p.line : Int), position.map fun p => (p.column : Int)⟩

/-- Something that may be unknown. -/
def known (text : Option String) : String := text.getD "None"

/-- A key on one line. -/
def keyOnLine (key : String) : String :=
  String.ofList (replaceAll ['\n'] ['\\', 'n'] key.toList)

/-- The report of a fault. -/
def Problem.report (p : Problem) (key : String) (locale file : Option String) : String :=
  let place (number : Option Int) : String :=
    if p.kind.hasPlace then known (number.map toString) else known none
  String.intercalate "\n" [
    p.kind.name ++ ":",
    "Error:  " ++ p.message,
    "Column: " ++ place p.column,
    "Line:   " ++ place p.line,
    "Key:    " ++ keyOnLine key,
    "Locale: " ++ known locale,
    "File:   " ++ known file]

/-- The line of a log that reports a fault. -/
def Problem.warning (p : Problem) (key : String) (locale file : Option String) : Line :=
  ⟨.warning, p.report key locale file⟩

end MessageCatalog.Report
