/-!
# MessageCatalog.Report.Log -- what an operation says while it works

Lines of four levels, oldest first. How much of them is shown is up to who asks.
-/

namespace MessageCatalog.Report

/-- How much a line matters. -/
inductive Level where
  | debug
  | info
  | warning
  | error
  deriving DecidableEq, Repr

namespace Level

/-- The name of a level. -/
def name : Level → String
  | .debug => "DEBUG"
  | .info => "INFO"
  | .warning => "WARNING"
  | .error => "ERROR"

/-- The rank of a level, the least important first. -/
def rank : Level → Nat
  | .debug => 0
  | .info => 1
  | .warning => 2
  | .error => 3

/-- Whether a line of a level is shown where those from another on are. -/
def isShownFrom (level least : Level) : Bool := least.rank ≤ level.rank

end Level

/-- A line of a log. -/
structure Line where
  level : Level
  text : String
  deriving DecidableEq, Repr

/-- The lines of a log, oldest first. -/
abbrev Log := List Line

/-- The lines from a level on. -/
def Log.shownFrom (log : Log) (least : Level) : Log :=
  log.filter fun line => line.level.isShownFrom least

end MessageCatalog.Report
