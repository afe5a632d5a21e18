import MessageCatalog.Failure
import MessageCatalog.Files.Glob
import MessageCatalog.Message.Engine

/-!
# MessageCatalog.Project.Session -- what an operation works on

An operation reads and writes the files of a project and keeps a log. What it has written and said
stays when it ends early.
-/

namespace MessageCatalog.Project

open MessageCatalog.Files MessageCatalog.Message MessageCatalog.Report MessageCatalog.Text

/-- The files of a project and what was said so far. -/
structure Session where
  tree : Tree
  log : Log
  deriving Repr, Inhabited

/-- A part of an operation: it can fail and leaves a session either way. -/
abbrev Action := ExceptT Failure (StateM Session)

namespace Action

/-- Says something. -/
def say (lines : Log) : Action Unit := modify fun s => { s with log := s.log ++ lines }

/-- Says one line. -/
def sayLine (level : Level) (text : String) : Action Unit := say [⟨level, text⟩]

/-- The files as they are now. -/
def files : Action Tree := do return (← get).tree

/-- A result that may be a failure. -/
def ofExcept {α : Type} : Except Failure α → Action α
  | .ok value => pure value
  | .error failure => throw failure

/-- Writes a text to a file, making the folders on the way. -/
def write (path text : String) : Action Unit := do
  let s ← get
  match s.tree.writeText (Path.ofText path) text with
  | .ok tree => set { s with tree }
  | .error fault => throw (.unwritable fault)

/-! ## Sources -/

/-- Adds the files of a pattern to those that were found, or says that a plain path leads to
none. -/
def addSources (tree : Tree) (found : List String × Log) (pattern : String) : List String × Log :=
  if isWild pattern then ((tree.glob pattern).foldl addNew found.1, found.2)
  else if tree.isFile pattern then (addNew found.1 pattern, found.2)
  else (found.1, found.2 ++ [⟨.warning, s!"Source file {pattern} not found."⟩])

/-- The files of some patterns, each once, and what there is to say about them. -/
def expandSources (tree : Tree) (patterns : List String) : List String × Log :=
  patterns.foldl (addSources tree) ([], [])

/-- The files of some patterns. -/
def sources (patterns : List String) : Action (List String) := do
  let (found, log) := expandSources (← files) patterns
  say log
  return found

/-- The text of the file at a path. -/
def readText (path : String) : Action (List Char) := do
  ofExcept (((← files).text (Path.ofText path)).mapError Failure.unreadable)

/-- The text of a source; one that cannot be read is reported. -/
def readSource (path : String) : Action (Option (List Char)) := do
  match (← files).text (Path.ofText path) with
  | .ok text => return some text
  | .error fault =>
    sayLine .error s!"Unable to read {path}: {fault.message}"
    return none

/-- The texts of the sources that can be read, in order. -/
def readAll : List String → Action (List (String × List Char))
  | [] => return []
  | path :: rest => do
    let text ← readSource path
    let texts ← readAll rest
    return text.toList.map (fun t => (path, t)) ++ texts

/-! ## Stores and engines -/

/-- Says that a file was read. -/
def sayParsed (path : String) : Action Unit := sayLine .info s!"Parsed locales from {path}."

/-- The store of a text. -/
def readStore (source : String) (text : List Char) : Action Store :=
  ofExcept ((Store.read source text).mapError Failure.store)

/-- The store of a text; one that is not in the form of a store is reported at a level. -/
def readStoreOr (level : Level) (source : String) (text : List Char) : Action (Option Store) := do
  match Store.read source text with
  | .ok store => return some store
  | .error (.format error) =>
    sayLine level error.message
    return none
  | .error fault => throw (.store fault)

/-- The engine of a locale. -/
def engineOf (data : Locale.Data) (locale : String) : Action Engine := do
  let engine ← ofExcept ((Engine.forLocale data locale).mapError Failure.unknownLocale)
  sayLine .debug engine.describe
  return engine

/-- The engines of locales, by their names. -/
def enginesOf (data : Locale.Data) (locales : List String) : Action (Keyed Engine) := do
  let engines ← locales.mapM fun locale => do return (locale, ← engineOf data locale)
  return Keyed.ofList engines

/-- The text of a store in the layout of the configuration. -/
def storeText (options : Config.Options) (store : Store) (selection : Option (List String)) :
    Action String :=
  ofExcept
    ((Store.write store options.storeLayout options.flatStores selection).mapError Failure.store)

end Action

end MessageCatalog.Project
