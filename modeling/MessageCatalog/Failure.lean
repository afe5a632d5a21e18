import MessageCatalog.Config.Target
import MessageCatalog.Locale.Name
import MessageCatalog.Report.Problem
import MessageCatalog.Store.Basic

/-!
# MessageCatalog.Failure -- why an operation ends before it is done

Faults of single messages and files are reported and passed over. What ends an operation is either a
problem that has a wording for whoever runs it, or something that the operation does not expect at
all.
-/

namespace MessageCatalog

open MessageCatalog.Report

/-- Why an operation ended. -/
inductive Failure where
  | configuration (fault : Config.Fault)
  | store (fault : Store.Fault)
  | unknownLocale (error : Locale.UnknownLocale)
  /-- A pattern finds no locale in a path. -/
  | noLocale (pattern path : String)
  /-- A file that a configuration names is not there. -/
  | notFound (what path : String)
  | noDestination
  | unknownOperation (name : String)
  /-- A file that is there cannot be read as a text. -/
  | unreadable (fault : Files.ReadFault)
  /-- A file cannot be written. -/
  | unwritable (fault : Files.Fault)
  /-- The delimiter or the quote of tables is not one character. -/
  | badSheetFormat
  deriving Repr

namespace Failure

/-- The kind and the wording of a failure that has one. -/
def worded? : Failure → Option (Kind × String)
  | .configuration (.config error) => some (.configuration, error.message)
  | .store (.format error) => some (.storeFormat, error.message)
  | .unknownLocale error => some (.configuration, error.message)
  | .noLocale pattern path =>
    some (.configuration,
      "Regular expression " ++ pattern ++ " failed to match locale in path " ++ path ++ ".")
  | .notFound what path => some (.configuration, what ++ " " ++ path ++ " not found.")
  | .noDestination => some (.configuration, "Missing destination file path.")
  | .unknownOperation name => some (.configuration, s!"Unknown operation '{name}'")
  | _ => none

end Failure

end MessageCatalog
