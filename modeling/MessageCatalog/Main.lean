import MessageCatalog.Command.Run
import MessageCatalog.Locale.RuleTable

/-!
# MessageCatalog.Main -- the command line

Reads the files below the working directory, runs the command on them, writes the files that changed
and shows the log. Everything that is decided is decided in `Command.run`.
-/

open MessageCatalog

namespace MessageCatalog.Command

/-- Adds entries of a folder, and what lies below them, to a tree. -/
partial def loadEntries (tree : Files.Tree) (folder : Files.Place)
    (entries : Array IO.FS.DirEntry) : IO Files.Tree := do
  let mut tree := tree
  for entry in entries do
    let place := folder ++ [entry.fileName]
    if ← entry.path.isDir then
      tree := { tree with folders := tree.folders ++ [place.key] }
      tree ← loadEntries tree place (← entry.path.readDir)
    else
      let bytes ← IO.FS.readBinFile entry.path
      tree := { tree with files := tree.files.set place.key bytes.toList }
  return tree

/-- Writes the files that changed. -/
def storeChanges (before after : Files.Tree) : IO Unit := do
  for folder in after.folders do
    if !before.folders.contains folder then IO.FS.createDirAll folder
  for (path, bytes) in after.changedSince before do
    IO.FS.writeBinFile path bytes.toByteArray

/-- How the command is called. -/
def usage : String :=
  "usage: messages [-h] [-c CONFIG] [-v | -q] (update | build | export | import) [FILE ...]"

end MessageCatalog.Command

/-- Runs the command. -/
def main (arguments : List String) : IO UInt32 := do
  let folder ← IO.currentDir
  let before ← Command.loadEntries Files.Tree.empty [] (← folder.readDir)
  let run := Command.run Locale.common arguments before
  Command.storeChanges before run.tree
  for line in run.shownLines do IO.eprintln line
  match run.outcome with
  | .stopped why =>
    IO.eprintln Command.usage
    return UInt32.ofNat why.status
  | .finished status => return UInt32.ofNat status
  | .failed _ =>
    IO.eprintln "The operation ended with an unexpected failure."
    return 1
