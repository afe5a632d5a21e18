import MessageCatalog.Failure
import MessageCatalog.Json.Writer
import MessageCatalog.Text.Search

/-!
# MessageCatalog.Project.File -- the files of a locale

The files of a project have their locale in their path. A template of a path has a placeholder in
its place, and a pattern finds it again.

A store is written as a text in some layout, and read back from the file at a path. The path, as it
is given, stands for the file when its text is no store.
-/

namespace MessageCatalog.Project

open MessageCatalog.Config MessageCatalog.Files MessageCatalog.Json MessageCatalog.Text

/-! ## Paths -/

/-- A template of a path with a locale in the place of the placeholder. -/
def substituteLocale (template placeholder locale : String) : String :=
  String.ofList (replaceAll placeholder.toList locale.toList template.toList)

/-- The locale that a pattern finds in a path, slashes of either kind being the same. -/
def localeOfPath (pattern : WrittenPattern) (path : String) : Except Failure String :=
  let slashed := path.toList.map fun c => if c == '\\' then '/' else c
  match pattern.pattern.search slashed with
  | some (c :: locale) => .ok (String.ofList (c :: locale))
  | _ => .error (.noLocale pattern.source path)

/-! ## Stores -/

/-- Writes a store to a file, making the folders on the way. -/
def saveStore (tree : Tree) (path : String) (store : Store) (layout : Option Layout) (flat : Bool)
    (selection : Option (List String)) : Except Failure Tree := do
  let text ← (Store.write store layout flat selection).mapError Failure.store
  (tree.writeText (Path.ofText path) text).mapError Failure.unwritable

/-- Reads a store from a file. -/
def loadStore (tree : Tree) (path : String) : Except Failure Store := do
  let text ← (tree.text (Path.ofText path)).mapError Failure.unreadable
  (Store.read path text).mapError Failure.store

end MessageCatalog.Project
