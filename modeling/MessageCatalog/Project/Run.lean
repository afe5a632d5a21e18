import MessageCatalog.Project.Sheets

/-!
# MessageCatalog.Project.Run -- operations by name

An operation runs with the configuration of a file. The configuration is read before the name of the
operation is looked at.
-/

namespace MessageCatalog.Project

open MessageCatalog.Config

/-- Runs an operation of a configuration, with what is known of locales. -/
def perform (data : Locale.Data) (config : Configuration) (given : Option (List String)) :
    Operation → Action Unit
  | .update => update config given
  | .build => build data config given
  | .exportSheets => exportSheets config given
  | .importSheets => importSheets data config given

/-- Reads a configuration. -/
def loadConfiguration (file : String) : Action Configuration := do
  Action.ofExcept ((Configuration.load (← Action.files) file).mapError Failure.configuration)

/-- Runs the operation of a name with the configuration of a file. -/
def run (data : Locale.Data) (file operation : String) (given : Option (List String)) :
    Action Unit := do
  let config ← loadConfiguration file
  match Operation.ofName? operation with
  | some op => perform data config given op
  | none => throw (.unknownOperation operation)

/-- What an operation left behind: its outcome, the files and what it said. -/
def runIn (tree : Files.Tree) (action : Action Unit) : Except Failure Unit × Session :=
  action.run ⟨tree, []⟩

end MessageCatalog.Project
