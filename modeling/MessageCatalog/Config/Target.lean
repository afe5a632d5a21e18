import MessageCatalog.Config.Options
import MessageCatalog.Config.Toml

/-!
# MessageCatalog.Config.Target -- a whole configuration

A configuration holds the settings of its options and, for each operation, the patterns of its
sources and the path that it writes to. Paths are seen from the folder of the configuration's file.
-/

namespace MessageCatalog.Config

open MessageCatalog.Files

/-- What can be done with the messages of a project. -/
inductive Operation where
  | update
  | build
  | exportSheets
  | importSheets
  deriving DecidableEq, Repr

namespace Operation

/-- All operations, in the order in which they are listed. -/
def all : List Operation := [.update, .build, .exportSheets, .importSheets]

/-- The name of an operation. -/
def name : Operation → String
  | .update => "update"
  | .build => "build"
  | .exportSheets => "export"
  | .importSheets => "import"

/-- The operation of a name. -/
def ofName? (name : String) : Option Operation := all.find? fun op => op.name == name

end Operation

/-- The sources of an operation and where it writes. -/
structure Target where
  sources : List String
  destination : String
  deriving DecidableEq, Repr, Inhabited

/-- A configuration. -/
structure Configuration where
  settings : Table
  options : Options
  /-- The targets of the operations that the configuration names. -/
  targets : List (Operation × Target)
  deriving Repr

/-- The target of an operation, with no source and no destination when there is none. -/
def Configuration.target (c : Configuration) (op : Operation) : Target :=
  (c.targets.lookup op).getD ⟨[], ""⟩

/-- The entries of a setting that has to be a table. -/
def tableOf : Setting → Except Fault Table
  | .table entries => .ok entries
  | _ => .error .notTable

/-- The destination that a target names. -/
def destinationOf (op : Operation) : Option Setting → Except Fault String
  | none => .ok ""
  | some (.text path) => .ok path
  | some _ => .error (.config (.destinationNotText op.name))

/-- Reads the target of an operation. -/
def Target.read (base : Path) (op : Operation) (value : Setting) : Except Fault Target := do
  let entries ← tableOf value
  let destination ← destinationOf op (entries.lookup "dest")
  let patterns ← listOf ((entries.lookup "src").getD (.array []))
  let sources ← patterns.mapM (resolvedPath base)
  return ⟨sources, if destination.isEmpty then "" else base.resolve destination⟩

/-- Reads a configuration from the tables of its file. -/
def Configuration.ofTables (base : Path) (tables : Table) : Except Fault Configuration := do
  let known := "options" :: Operation.all.map Operation.name
  let unknown := (tables.map Prod.fst).filter fun name => !known.contains name
  if !unknown.isEmpty then throw (.config (.unknownTables (Keyed.ascending unknown)))
  let entries ← tableOf ((tables.lookup "options").getD (.table []))
  let settings ← settingsOf base entries
  let options ← Options.ofSettings settings
  let given := Operation.all.filterMap fun op =>
    (tables.lookup op.name).map fun value => (op, value)
  let targets ← given.mapM fun (op, value) => do return (op, ← Target.read base op value)
  return ⟨settings, options, targets⟩

/-- Reads a configuration from a file. -/
def Configuration.load (tree : Tree) (file : String) : Except Fault Configuration := do
  let path := Path.ofText file
  match tree.characters path with
  | .error (.file .absent) => throw (.config (.fileNotFound path.toText))
  | .error fault => throw (.unreadable fault)
  | .ok text =>
    match Toml.read? text with
    | some tables => Configuration.ofTables path.parent tables
    | none => throw (.config (.invalidFile path.toText))

/-! ## Showing a configuration -/

/-- The settings that are not the default, or all of them. -/
def shownSettings (settings : Table) (all : Bool) : Table :=
  settings.filter fun (name, value) => all || !(setting defaults name).same value

/-- The names of the operations that have a target, sorted. -/
def Configuration.configured (c : Configuration) : List String :=
  Keyed.ascending (c.targets.map fun (op, _) => op.name)

end MessageCatalog.Config
