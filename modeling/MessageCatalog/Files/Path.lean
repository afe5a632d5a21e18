import MessageCatalog.Text.Search

/-!
# MessageCatalog.Files.Path -- paths as texts and taken apart

A path is read by its parts: empty parts and single dots say nothing and are dropped, double dots
stay because only the files themselves can say where they lead. `normal` is the one function that
resolves double dots by the text alone.
-/

namespace MessageCatalog.Files

open MessageCatalog.Text

/-- A path: the slashes that it starts from, if any, and its parts. -/
structure Path where
  root : String
  parts : List String
  deriving DecidableEq, Repr, Inhabited

namespace Path

/-- The parts of a text between its slashes, empty ones too. -/
def pieces (text : String) : List String := (splitOnChar (· == '/') text.toList).map String.ofList

/-- The root that a text starts from: two slashes are a root of their own, any other number is
one. -/
def rootOf (text : String) : String :=
  match (text.toList.takeWhile (· == '/')).length with
  | 0 => ""
  | 2 => "//"
  | _ => "/"

/-- Whether a part says something. -/
def isTelling (part : String) : Bool := part != "" && part != "."

/-- Reads a path. -/
def ofText (text : String) : Path := ⟨rootOf text, (pieces text).filter isTelling⟩

/-- A root with parts behind it; nothing at all is written as a dot. -/
def write (root : String) (parts : List String) : String :=
  if root.isEmpty && parts.isEmpty then "." else root ++ String.intercalate "/" parts

/-- A path as a text. -/
def toText (path : Path) : String := write path.root path.parts

/-- Whether a path starts from a root. -/
def isAbsolute (path : Path) : Bool := !path.root.isEmpty

/-- The folder that a path lies in. -/
def parent (path : Path) : Path := ⟨path.root, path.parts.dropLast⟩

/-- A path as seen from a folder. -/
def join (base path : Path) : Path :=
  if path.isAbsolute then path else ⟨base.root, base.parts ++ path.parts⟩

/-- A written path as seen from a folder; one that starts from a root is kept as it is written. -/
def resolve (base : Path) (text : String) : String :=
  if (ofText text).isAbsolute then text else (base.join (ofText text)).toText

/-- One more part behind resolved ones, which are given last first. -/
def push (absolute : Bool) (resolved : List String) (part : String) : List String :=
  if part != ".." then part :: resolved
  else
    match resolved with
    | [] => if absolute then [] else [part]
    | last :: rest => if last == ".." then part :: resolved else rest

/-- The text of a path with its double dots resolved as far as they can be. -/
def normal (text : String) : String :=
  let path := ofText text
  write path.root (path.parts.foldl (push path.isAbsolute) []).reverse

end Path

end MessageCatalog.Files
