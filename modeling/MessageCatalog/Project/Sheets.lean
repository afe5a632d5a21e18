import MessageCatalog.Project.Build
import MessageCatalog.Sheet.Import
import MessageCatalog.Sheet.Writer

/-!
# MessageCatalog.Project.Sheets -- stores to tables and back

Every store is written as a table for translators. Tables that come back change the texts of
keys that a store has and nothing else; a locale without a store is reported and skipped.
-/

namespace MessageCatalog.Project

open MessageCatalog.Config MessageCatalog.Message

/-- Writes the table of a store. -/
def exportStore (options : Options) (destination path locale : String) (text : List Char) :
    Action Unit := do
  match ← Action.readStoreOr .error path text with
  | none => return ()
  | some store =>
    Action.sayParsed path
    let file := substituteLocale destination options.placeholder locale
    Action.write file (Sheet.writeStore options.sheet store locale)
    Action.sayLine .info s!"Exported locales to {file}."

/-- Writes the tables of all stores. -/
def exportSheets (config : Configuration) (given : Option (List String)) : Action Unit := do
  let options := config.options
  let target := config.target .exportSheets
  let destination ← destinationOf target
  let paths ← sourcesOf target given
  let locales ← localesOf options paths
  (← Action.readAll paths).forM fun (path, text) =>
    exportStore options destination path (localeFor locales path) text

/-- Takes localized texts into the store of a locale. -/
def importEntries (options : Options) (destination locale : String)
    (entries : Keyed Store.Entry) : Action Unit := do
  let path := substituteLocale destination options.placeholder locale
  let tree ← Action.files
  if !tree.isFile path then
    Action.sayLine .warning s!"Import target file {path} not found."
    return ()
  let text ← Action.readText path
  match ← Action.readStoreOr .warning path text with
  | none => return ()
  | some store =>
    let changed := Store.extendAll store entries.pairs true
    Action.write path (← Action.storeText options changed none)
    Action.sayLine .info s!"Updated locale file {path}."

/-- Takes a table into the stores of its locales. -/
def importSheet (options : Options) (destination : String) (engines : Keyed Engine)
    (path : String) (text : List Char) : Action Unit := do
  let (imported, log) ← Action.ofExcept (Sheet.readTable options engines (some path) text)
  Action.say log
  Action.sayParsed path
  imported.pairs.forM fun (locale, entries) => importEntries options destination locale entries

/-- Takes all tables into the stores. -/
def importSheets (data : Locale.Data) (config : Configuration) (given : Option (List String)) :
    Action Unit := do
  let options := config.options
  let target := config.target .importSheets
  let destination ← destinationOf target
  let paths ← sourcesOf target given
  if paths.isEmpty then
    Action.sayLine .warning "No import source file found."
    return ()
  let engines ← Action.enginesOf data options.locales
  (← Action.readAll paths).forM fun (path, text) =>
    importSheet options destination engines path text

end MessageCatalog.Project
