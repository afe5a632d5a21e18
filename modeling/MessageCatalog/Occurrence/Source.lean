import MessageCatalog.Occurrence.Call
import MessageCatalog.Occurrence.Page
import MessageCatalog.Store.Basic

/-!
# MessageCatalog.Occurrence.Source -- messages of any source

The name of a file says whether it is a page or a script. A file that is neither, or that cannot be
read, adds nothing to a store; otherwise all its messages are merged.
-/

namespace MessageCatalog.Occurrence

open MessageCatalog.Config MessageCatalog.Report

/-- What a file is, by its path. -/
inductive SourceKind where
  | page
  | script
  deriving DecidableEq, Repr

/-- The kind of the file at a path, pages before scripts. -/
def kindOf? (options : Options) (path : String) : Option SourceKind :=
  if options.pageFiles.occursIn path.toList then some .page
  else if options.scriptFiles.occursIn path.toList then some .script
  else none

/-- The messages of a file of a kind, or the wording of what is wrong with it. -/
def ofKind (options : Options) (kind : SourceKind) (path : String) (text : List Char) :
    Except String Findings :=
  match kind with
  | .page =>
    match ofPage options path text with
    | .ok found => .ok found
    | .error e => .error e.message
  | .script =>
    match ofScript options path text with
    | .ok found => .ok found
    | .error e => .error e.message

/-- What scanning a file did: whether it was scanned, the store with its messages, and what was
said. -/
structure Scan where
  scanned : Bool
  store : Store
  log : Log
  deriving Repr

/-- Merges the messages of a file into a store. -/
def scan (options : Options) (store : Store) (path : String) (text : List Char) : Scan :=
  match kindOf? options path with
  | none => ⟨false, store, [⟨.warning, s!"Source file {path} not matched as HTML or JS file."⟩]⟩
  | some kind =>
    match ofKind options kind path text with
    | .error message => ⟨false, store, [⟨.error, path ++ ": " ++ message⟩]⟩
    | .ok found => ⟨true, Store.extendAll store found.entries false, found.log⟩

end MessageCatalog.Occurrence
