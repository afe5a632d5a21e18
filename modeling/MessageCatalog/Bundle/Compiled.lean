import MessageCatalog.Content
import MessageCatalog.Message.Engine
import MessageCatalog.Report.Problem
import MessageCatalog.Store.Basic

/-!
# MessageCatalog.Bundle.Compiled -- the messages of a store as script

A message with placeholders becomes a function. A localized text without any becomes a quoted text,
and one that is its own key is left out, since a page falls back to the key. A message with a fault
is reported and left out, and changes nothing for the others.
-/

namespace MessageCatalog.Bundle

open MessageCatalog.Config MessageCatalog.Message MessageCatalog.Report

/-- Script for the quoted keys of messages, in order. -/
abbrev CompiledMessages := Keyed String

/-- Whether a message has to be a function. -/
def needsFunction (options : Options) (key value : List Char) : Bool :=
  (options.wrapStatic && key != value) || value.contains '\x7b'

/-- The problem of malformed markup. -/
def markupProblem (e : Markup.MarkupError) : Problem := .at .markup e.message e.position

/-- The problem of a malformed message. -/
def messageProblem (e : ParseError) : Problem := .at .message e.message (some e.position)

/-- The quoted key and the script of a message, if it needs one. -/
def compileMessage (options : Options) (engine : Engine) (key value : List Char) :
    Except Problem (Option (List Char × List Char)) := do
  let cleaned ← (Content.clean options key value true).mapError markupProblem
  let content ← (Content.keepPlain value cleaned.content).mapError markupProblem
  if needsFunction options key content then
    let script ← (engine.compile content).mapError messageProblem
    return some (Script.quote cleaned.key, script)
  if key != value then return some (Script.quote cleaned.key, Script.literal content)
  return none

/-- Adds a message to compiled ones, or the report of its fault to the log. -/
def addMessage (options : Options) (engine : Engine) (file : Option String)
    (done : CompiledMessages × Log) (key value : String) : CompiledMessages × Log :=
  match compileMessage options engine key.toList value.toList with
  | .ok (some (name, script)) => (done.1.set (String.ofList name) (String.ofList script), done.2)
  | .ok none => done
  | .error problem => (done.1, done.2 ++ [problem.warning key (some engine.locale) file])

/-- The text of a key of a store. -/
def valueOf (store : Store) (key : String) : String :=
  ((store.get? key).map fun slot => slot.toEntry.value).getD ""

/-- The messages of a store as script, keys in ascending order, and what there is to say about
them. -/
def compileStore (options : Options) (engine : Engine) (store : Store) (file : Option String) :
    CompiledMessages × Log :=
  let (done, log) := store.sortedKeys.foldl
    (fun done key => addMessage options engine file done key (valueOf store key)) (Keyed.empty, [])
  (done, log ++
    [⟨.debug, s!"Compiled {done.size} of {store.size} messages for {engine.locale}"⟩])

/-- Compiled messages as an object of a script. -/
def renderCompiled (messages : CompiledMessages) : String :=
  if messages.isEmpty then "\x7b\x7d"
  else
    "\x7b\n" ++ String.intercalate ",\n"
      (messages.pairs.map fun (key, script) => "        " ++ key ++ ": " ++ script) ++
      "\n    \x7d"

end MessageCatalog.Bundle
