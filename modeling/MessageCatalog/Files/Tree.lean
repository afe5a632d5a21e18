import MessageCatalog.Files.Path
import MessageCatalog.Keyed
import MessageCatalog.Text.Search
import MessageCatalog.Text.Utf8

/-!
# MessageCatalog.Files.Tree -- the files that the operations read and write

A tree holds the bytes of files under the names that lead to them, and the folders that are there
even when they hold nothing. Paths start from the top of the tree, which is the folder that everything
runs in. The tree is all there is: what lies above its top or is named from a root is absent, and no
file is made there. A path is followed name by name, so that double dots lead where the folders say
and a slash at the end asks for a folder.
-/

namespace MessageCatalog.Files

open MessageCatalog.Text

/-- Why a file cannot be read or written. -/
inductive Fault where
  | absent
  | isFolder
  | notFolder
  /-- A file stands where a folder is to be made. -/
  | occupied
  deriving DecidableEq, Repr

/-- The names that lead from the top to a file or folder. -/
abbrev Place := List String

/-- The one text for a place. -/
def Place.key (place : Place) : String := String.intercalate "/" place

/-- Files and folders. -/
structure Tree where
  files : Keyed (List UInt8)
  folders : List String
  deriving Repr, Inhabited

/-- Where a path leads. -/
inductive Spot where
  | file (place : Place)
  | folder (place : Place)
  deriving DecidableEq, Repr

namespace Tree

/-- No file and no folder. -/
def empty : Tree := ⟨Keyed.empty, []⟩

/-- Whether there is a folder at a place. -/
def hasFolder (tree : Tree) (place : Place) : Bool :=
  place.isEmpty || tree.folders.contains place.key

/-- Whether there is a file at a place. -/
def hasFile (tree : Tree) (place : Place) : Bool := tree.files.contains place.key

/-! ## Following a path -/

/-- Follows the pieces of a path from a folder. -/
def follow (tree : Tree) (here : Place) : List String → Except Fault Spot
  | [] => .ok (.folder here)
  | piece :: rest =>
    if !Path.isTelling piece then follow tree here rest
    else if piece == ".." then
      if here.isEmpty then .error .absent else follow tree here.dropLast rest
    else
      let there := here ++ [piece]
      if tree.hasFolder there then follow tree there rest
      else if !tree.hasFile there then .error .absent
      else if rest.isEmpty then .ok (.file there)
      else .error .notFolder

/-- Where a written path leads, every slash taken as it stands. -/
def locate (tree : Tree) (text : String) : Except Fault Spot :=
  if text.isEmpty || (Path.ofText text).isAbsolute then .error .absent
  else tree.follow [] (Path.pieces text)

/-- Whether a written path leads to a file. -/
def isFile (tree : Tree) (text : String) : Bool :=
  match tree.locate text with
  | .ok (.file _) => true
  | _ => false

/-- The folder that a written path leads to. -/
def folder? (tree : Tree) (text : String) : Option Place :=
  match tree.locate text with
  | .ok (.folder place) => some place
  | _ => none

/-- The names directly inside a folder, of its folders alone or of its files too. -/
def namesIn (tree : Tree) (place : Place) (foldersOnly : Bool) : List String :=
  let keys := if foldersOnly then tree.folders else tree.files.keys ++ tree.folders
  keys.filterMap fun key =>
    let names := Path.pieces key
    if names.dropLast == place then names.getLast? else none

/-! ## Reading and writing -/

/-- The bytes of the file that a path leads to. -/
def bytes (tree : Tree) (path : Path) : Except Fault (List UInt8) := do
  if path.isAbsolute then throw .absent
  match ← tree.follow [] path.parts with
  | .file place =>
    match tree.files.get? place.key with
    | some content => return content
    | none => throw .absent
  | .folder _ => throw .isFolder

/-- Makes the folders that some parts name, from a folder on, and says where they lead. -/
def makeFolders (tree : Tree) (here : Place) : List String → Except Fault (Tree × Place)
  | [] => .ok (tree, here)
  | part :: rest =>
    if part == ".." then
      if here.isEmpty then .error .absent else makeFolders tree here.dropLast rest
    else
      let there := here ++ [part]
      if tree.hasFolder there then makeFolders tree there rest
      else if tree.hasFile there then .error (if rest.isEmpty then .occupied else .notFolder)
      else makeFolders { tree with folders := tree.folders ++ [there.key] } there rest

/-- Writes a file, making the folders on the way. -/
def write (tree : Tree) (path : Path) (content : List UInt8) : Except Fault Tree := do
  if path.isAbsolute then throw .absent
  let (tree, here) ← tree.makeFolders [] path.parts.dropLast
  match path.parts.getLast? with
  | none => throw .isFolder
  | some name =>
    let there := here ++ [name]
    if name == ".." || tree.hasFolder there then throw .isFolder
    return { tree with files := tree.files.set there.key content }

/-- Takes a file away; its folder stays. -/
def remove (tree : Tree) (path : Path) : Tree :=
  { tree with files := tree.files.erase (Place.key path.parts) }

/-! ## What changed -/

/-- The files that are new or differ from those of an earlier tree. -/
def changedSince (tree before : Tree) : List (String × List UInt8) :=
  tree.files.pairs.filter fun (key, content) => before.files.get? key != some content

/-- The files of an earlier tree that are no longer there. -/
def goneSince (tree before : Tree) : List String :=
  before.files.keys.filter fun key => !tree.files.contains key

end Tree

/-! ## Files as texts -/

/-- Why the text of a file cannot be read. -/
inductive ReadFault where
  | file (fault : Fault)
  | undecodable (error : Utf8Error)
  deriving DecidableEq, Repr

/-- The wording of a fault for a line of a log. -/
def ReadFault.message : ReadFault → String
  | .file _ => "no such file"
  | .undecodable error => error.message

namespace Tree

/-- The characters of a file. -/
def characters (tree : Tree) (path : Path) : Except ReadFault (List Char) := do
  let bytes ← (tree.bytes path).mapError ReadFault.file
  (decodeUtf8 bytes).mapError ReadFault.undecodable

/-- The text of a file, its line ends made the same. -/
def text (tree : Tree) (path : Path) : Except ReadFault (List Char) :=
  (tree.characters path).map unifyLineEnds

/-- Writes a text to a file. -/
def writeText (tree : Tree) (path : Path) (text : String) : Except Fault Tree :=
  tree.write path (encodeUtf8 text.toList)

end Tree

end MessageCatalog.Files
