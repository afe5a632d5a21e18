import MessageCatalog.Occurrence.Source
import MessageCatalog.Project.File
import MessageCatalog.Project.Session

/-!
# MessageCatalog.Project.Update -- from sources to stores

The messages of the seeds and the sources make a working set, and every store of a locale takes it
in: new keys come with the text of the source, known keys keep their text. Keys that are in
no source any more are dropped, but only when every source that the configuration names was scanned.
-/

namespace MessageCatalog.Project

open MessageCatalog.Config MessageCatalog.Files

/-- The destination of a target, which has to name one. -/
def destinationOf (target : Target) : Action String :=
  if target.destination.isEmpty then throw .noDestination else return target.destination

/-- Merges a seed into the working set. -/
def mergeSeed (messages : Store) (seed : String × List Char) : Action Store := do
  match ← Action.readStoreOr .error seed.1 seed.2 with
  | none => return messages
  | some store =>
    Action.sayParsed seed.1
    return Store.extendAll messages (Store.entries store) false

/-- The working set of the seeds. -/
def seedStore (options : Options) : Action Store := do
  let paths ← Action.sources options.seeds
  (← Action.readAll paths).foldlM mergeSeed Keyed.empty

/-- The working set so far, and the paths that were scanned. -/
structure Scanned where
  messages : Store
  paths : List String
  deriving Repr

/-- Merges the messages of a source into the working set. -/
def scanSource (options : Options) (done : Scanned) (path : String) : Action Scanned := do
  match ← Action.readSource path with
  | none => return done
  | some text =>
    let scan := Occurrence.scan options done.messages path text
    Action.say scan.log
    if !scan.scanned then return done
    Action.sayParsed path
    return ⟨scan.store, done.paths ++ [Path.normal path]⟩

/-- Whether keys that were not seen may be dropped: some source was scanned, and all that the
configuration names. -/
def mayPurge (options : Options) (configured scanned : List String) : Bool :=
  options.purge && !scanned.isEmpty &&
    configured.all fun path => scanned.contains (Path.normal path)

/-- Takes the working set into the store of a locale. -/
def updateStore (options : Options) (destination : String) (messages : Store) (purge : Bool)
    (locale : String) : Action Unit := do
  let path := substituteLocale destination options.placeholder locale
  let tree ← Action.files
  let known := tree.isFile path
  let store ←
    if known then
      let text ← Action.readText path
      let store ← Action.readStore path text
      Action.sayParsed path
      pure store
    else pure Keyed.empty
  let store := Store.extendAll store (Store.entries messages) false
  let text ← Action.storeText options store (if purge then some messages.keys else none)
  Action.write path text
  Action.sayLine .info ((if known then "Updated" else "Created") ++ s!" locale file {path}.")

/-- Takes the messages of the seeds and of some files into the stores of all locales. -/
def updateFrom (options : Options) (destination : String) (configured files : List String) :
    Action Unit := do
  let seeds ← seedStore options
  let scanned ← files.foldlM (scanSource options) ⟨seeds, []⟩
  let purge := mayPurge options configured scanned.paths
  if options.purge && !purge then
    Action.sayLine .info "Not purging locales: only a subset of the sources was scanned."
  options.locales.forM (updateStore options destination scanned.messages purge)

/-- Updates the stores of all locales. Paths that are given replace the configured sources. All
sources are read at once, and each is merged when it has been read, so their order is one that the
run is given. -/
def updateInOrder (config : Configuration) (given : Option (List String))
    (order : List String → List String) : Action Unit := do
  let target := config.target .update
  let destination ← destinationOf target
  let configured ← Action.sources target.sources
  let sources ←
    match given with
    | none => pure configured
    | some patterns => Action.sources patterns
  updateFrom config.options destination configured (order sources)

/-- The update whose sources are read in the order in which they are found. -/
def update (config : Configuration) (given : Option (List String)) : Action Unit :=
  updateInOrder config given id

end MessageCatalog.Project
