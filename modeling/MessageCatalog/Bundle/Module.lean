import MessageCatalog.Bundle.Compiled
import MessageCatalog.Bundle.Resource
import MessageCatalog.Bundle.Template
import MessageCatalog.Failure
import MessageCatalog.Project.File

/-!
# MessageCatalog.Bundle.Module -- the module of a locale

A module is a template filled with the messages of a locale, its plural rules and the functions
that they call. Template, functions and rules are the packaged ones unless the configuration names
files of its own; in the name of a file with rules the placeholder stands for the language.
-/

namespace MessageCatalog.Bundle

open MessageCatalog.Config MessageCatalog.Files MessageCatalog.Message MessageCatalog.Text

/-- The text of a file that the configuration names for some purpose. -/
def namedText (tree : Tree) (path what : String) : Except Failure (List Char) := do
  let place := Path.ofText path
  if !tree.isFile place.toText then throw (.notFound what path)
  (tree.text place).mapError Failure.unreadable

/-- The template of modules. -/
def templateText (tree : Tree) (options : Options) : Except Failure (List Char) :=
  match options.templateFile with
  | none => .ok packagedTemplate.toList
  | some path => namedText tree path "Locale template"

/-- The functions that compiled messages call. -/
def runtimeText (tree : Tree) (options : Options) : Except Failure (List Char) :=
  match options.runtimeFile with
  | none => .ok packagedRuntime.toList
  | some path => namedText tree path "MessageFormat shared file"

/-- The plural rules of a locale. -/
def rulesText (tree : Tree) (options : Options) (engine : Engine) : Except Failure (List Char) :=
  match options.rulesFile with
  | none => .ok engine.rulesScript.toList
  | some template =>
    namedText tree (Project.substituteLocale template options.placeholder engine.language)
      "MessageFormat locale file"

/-- What a module is made of. -/
structure Parts where
  locale : String
  objectName : String
  rules : List Char
  runtime : List Char
  messages : CompiledMessages
  deriving Repr

/-- The module of a template with its parts. -/
def Parts.render (parts : Parts) (template : List Char) : List Char :=
  fill [("locale", Script.escape parts.locale.toList),
    ("locale_name", parts.objectName.toList),
    ("message_format_locale", parts.rules),
    ("message_format_shared", parts.runtime),
    ("translations", (renderCompiled parts.messages).toList)] template

end MessageCatalog.Bundle
