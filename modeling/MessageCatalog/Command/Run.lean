import MessageCatalog.Command.Arguments
import MessageCatalog.Project.Run

/-!
# MessageCatalog.Command.Run -- what the command does

The command runs one operation and shows its log. A failure that has a wording is the last line of
the log and makes the status one; any other failure ends the command without a status of its own.
-/

namespace MessageCatalog.Command

open MessageCatalog.Config MessageCatalog.Report MessageCatalog.Project

/-- How the command ended. -/
inductive Outcome where
  /-- It did not come to an operation. -/
  | stopped (why : Stop)
  | finished (status : Nat)
  | failed (failure : Failure)
  deriving Repr

/-- A run of the command: how it ended, the files, and the lines that it shows. -/
structure Run where
  outcome : Outcome
  tree : Files.Tree
  log : Log
  deriving Repr

/-- The least level of the lines that a request wants to see. -/
def Request.leastLevel (r : Request) : Level :=
  if r.verbose then .debug else if r.quiet then .warning else .info

/-- Runs the operation of a request. -/
def Request.perform (data : Locale.Data) (r : Request) (operation : Operation)
    (tree : Files.Tree) : Run :=
  let action : Action Unit := do
    let config ← loadConfiguration r.config
    Project.perform data config (if r.files.isEmpty then none else some r.files) operation
  let (outcome, session) := runIn tree action
  let shown (log : Log) : Log := log.shownFrom r.leastLevel
  match outcome with
  | .ok () => ⟨.finished 0, session.tree, shown session.log⟩
  | .error failure =>
    match failure.worded? with
    | some (_, message) =>
      ⟨.finished 1, session.tree, shown (session.log ++ [⟨.error, message⟩])⟩
    | none => ⟨.failed failure, session.tree, shown session.log⟩

/-- Runs the command with its arguments, with what is known of locales. -/
def run (data : Locale.Data) (arguments : List String) (tree : Files.Tree) : Run :=
  match Request.ofArguments arguments with
  | .ok (request, operation) => request.perform data operation tree
  | .error why => ⟨.stopped why, tree, []⟩

/-- A line of the log as the command shows it. -/
def shownLine (line : Line) : String := line.level.name ++ ": " ++ line.text

/-- The lines that the command shows, a text of several lines over as many of them. -/
def Run.shownLines (run : Run) : List String :=
  run.log.flatMap fun line =>
    (Text.splitOnChar (· == '\n') (shownLine line).toList).map String.ofList

end MessageCatalog.Command
