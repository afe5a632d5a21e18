import MessageCatalog.Bundle.Module
import MessageCatalog.Project.Update

/-!
# MessageCatalog.Project.Build -- from stores to modules

Every store becomes the module of its locale. Everything that all modules need is looked for first,
so that a fault there leaves no module half done; a store that is none is reported and skipped.
-/

namespace MessageCatalog.Project

open MessageCatalog.Bundle MessageCatalog.Config MessageCatalog.Message MessageCatalog.Text

/-- The sources of an operation: the paths that are given, or else the configured ones. -/
def sourcesOf (target : Target) (given : Option (List String)) : Action (List String) :=
  Action.sources (given.getD target.sources)

/-- The locales of paths. -/
def localesOf (options : Options) (paths : List String) : Action (List (String × String)) :=
  paths.mapM fun path => do
    return (path, ← Action.ofExcept (localeOfPath options.localeInPath path))

/-- The locale that was found for a path. -/
def localeFor (locales : List (String × String)) (path : String) : String :=
  (locales.lookup path).getD ""

/-- What all modules are made with. -/
structure Workshop where
  engines : Keyed Engine
  template : List Char
  runtime : List Char
  rules : Keyed (List Char)
  deriving Repr

/-- Looks for everything that the modules of some locales need. -/
def openWorkshop (data : Locale.Data) (options : Options) (locales : List String) :
    Action Workshop := do
  let engines ← Action.enginesOf data locales
  let tree ← Action.files
  let template ← Action.ofExcept (templateText tree options)
  let runtime ← Action.ofExcept (runtimeText tree options)
  let rules ← engines.pairs.mapM fun (locale, engine) => do
    return (locale, ← Action.ofExcept (rulesText tree options engine))
  return ⟨engines, template, runtime, Keyed.ofList rules⟩

/-- Writes the module of a store. -/
def buildModule (options : Options) (destination : String) (workshop : Workshop)
    (path locale : String) (text : List Char) : Action Unit := do
  match workshop.engines.get? locale, ← Action.readStoreOr .error path text with
  | some engine, some store =>
    let (messages, log) := compileStore options engine store (some path)
    Action.say log
    Action.sayParsed path
    let parts : Parts := {
      locale, messages
      objectName := options.objectName
      rules := (workshop.rules.get? locale).getD []
      runtime := workshop.runtime }
    let file := substituteLocale destination options.placeholder locale
    Action.write file (String.ofList (parts.render workshop.template))
    Action.sayLine .info s!"Updated locale file {file}."
  | _, _ => return ()

/-- Builds the modules of all stores. -/
def build (data : Locale.Data) (config : Configuration) (given : Option (List String)) :
    Action Unit := do
  let options := config.options
  let target := config.target .build
  let destination ← destinationOf target
  let paths ← sourcesOf target given
  let locales ← localesOf options paths
  let workshop ← openWorkshop data options (distinct (locales.map Prod.snd))
  (← Action.readAll paths).forM fun (path, text) =>
    buildModule options destination workshop path (localeFor locales path) text

end MessageCatalog.Project
