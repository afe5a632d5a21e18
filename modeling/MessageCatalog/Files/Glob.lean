import MessageCatalog.Files.Tree

/-!
# MessageCatalog.Files.Glob -- files by patterns of names

A pattern is a path some of whose parts stand for many names. A star stands for any characters, a
question mark for one, brackets for one of a set. Two stars alone as a part stand for any number of
folders, and as the last part for everything below. A name that starts with a dot is found only by a
part that does. The text of a pattern before its first such part is kept as it is written.
-/

namespace MessageCatalog.Files

open MessageCatalog.Text

/-! ## One part of a pattern -/

/-- What one character of a name has to be, or any number of them. -/
inductive Wild where
  | anyRun
  | anyOne
  | exactly (c : Char)
  | oneOf (ranges : List (Char × Char)) (negated : Bool)
  deriving DecidableEq, Repr

/-- Whether a text holds a character that stands for others. -/
def isWild (text : String) : Bool := text.toList.any fun c => c == '*' || c == '?' || c == '['

/-- The ranges that the inside of brackets names. A hyphen between two characters makes a range of
them, any other is itself. -/
def rangesOf : List Char → List (Char × Char)
  | low :: '-' :: high :: rest => (low, high) :: rangesOf rest
  | c :: rest => (c, c) :: rangesOf rest
  | [] => []

/-- The inside of brackets and what follows them. A closing bracket at the very start is itself. -/
def bracketBody (text : List Char) : Option (List Char × List Char) :=
  let (first, rest) :=
    match text with
    | ']' :: rest => ([']'], rest)
    | _ => ([], text)
  (splitAtFirst [']'] rest).map fun (body, after) => (first ++ body, after)

/-- Reads brackets after the opening one, and what follows them. -/
def readBrackets (text : List Char) : Option (Wild × List Char) :=
  let (negated, inside) :=
    match text with
    | '!' :: rest => (true, rest)
    | _ => (false, text)
  (bracketBody inside).map fun (body, after) => (.oneOf (rangesOf body) negated, after)

/-- Reads a part of a pattern. A bracket that nothing closes is itself. -/
def readWilds : (fuel : Nat) → List Char → List Wild
  | 0, _ => []
  | _, [] => []
  | fuel + 1, c :: rest =>
    if c == '*' then .anyRun :: readWilds fuel rest
    else if c == '?' then .anyOne :: readWilds fuel rest
    else if c == '[' then
      match readBrackets rest with
      | some (set, after) => set :: readWilds fuel after
      | none => .exactly c :: readWilds fuel rest
    else .exactly c :: readWilds fuel rest

/-- The wild characters of a part. -/
def wildsOf (part : String) : List Wild := readWilds part.toList.length part.toList

/-- Whether a character is one that a wild character stands for. -/
def Wild.accepts (w : Wild) (c : Char) : Bool :=
  match w with
  | .anyRun => true
  | .anyOne => true
  | .exactly d => c == d
  | .oneOf ranges negated => (ranges.any fun (low, high) => low ≤ c && c ≤ high) != negated

/-- Whether wild characters stand for a whole name. -/
def matchesWilds : List Wild → List Char → Bool
  | [], name => name.isEmpty
  | .anyRun :: wilds, [] => matchesWilds wilds []
  | _ :: _, [] => false
  | .anyRun :: wilds, c :: name =>
    matchesWilds wilds (c :: name) || matchesWilds (.anyRun :: wilds) name
  | w :: wilds, c :: name => w.accepts c && matchesWilds wilds name
termination_by wilds name => (name.length, wilds.length)

/-- Whether a name is one that others do not see. -/
def isHidden (name : String) : Bool := name.toList.head? == some '.'

/-- Whether a part of a pattern stands for a name. -/
def matchesName (part name : String) : Bool :=
  (isHidden part || !isHidden name) && matchesWilds (wildsOf part) name.toList

/-! ## Whole patterns -/

/-- A path inside a folder, both as they are written. -/
def behind (folder name : String) : String :=
  if folder.isEmpty || folder.toList.getLast? == some '/' then folder ++ name
  else folder ++ "/" ++ name

/-- The folder that a written path leads to; no path at all is the top. -/
def Tree.folderAt (tree : Tree) (text : String) : Option Place :=
  if text.isEmpty then some [] else tree.folder? text

/-- Everything below a folder that is not hidden, as seen from it; no deeper than some levels. -/
def Tree.below (tree : Tree) (foldersOnly : Bool) : (levels : Nat) → Place → List String
  | 0, _ => []
  | levels + 1, place =>
    ((tree.namesIn place foldersOnly).filter fun name => !isHidden name).flatMap fun name =>
      let there := place ++ [name]
      name :: (if tree.hasFolder there then
          (tree.below foldersOnly levels there).map (behind name)
        else [])

/-- More levels than any place of the tree has. -/
def Tree.depth (tree : Tree) : Nat :=
  ((tree.files.keys ++ tree.folders).map fun key => (Path.pieces key).length).foldl max 0 + 1

/-- The names that one part of a pattern finds in a folder. -/
def Tree.namesFor (tree : Tree) (folder part : String) (foldersOnly : Bool) : List String :=
  if part == "**" then
    match tree.folderAt folder with
    | some place => "" :: tree.below foldersOnly tree.depth place
    | none => []
  else if isWild part then
    match tree.folderAt folder with
    | some place => (tree.namesIn place foldersOnly).filter (matchesName part)
    | none => []
  else if (tree.locate (behind folder part)).toOption.isSome then [part]
  else []

/-- Follows the parts of a pattern from folders that were found. -/
def Tree.expandParts (tree : Tree) (folders : List String) : List String → List String
  | [] => folders
  | part :: rest =>
    tree.expandParts
      (folders.flatMap fun folder =>
        (tree.namesFor folder part (!rest.isEmpty)).map (behind folder))
      rest

/-- The text of a pattern before its first wild part, without the slashes there, and the parts
after. -/
def splitPattern (pattern : String) : String × List String :=
  let pieces := Path.pieces pattern
  let written := pieces.takeWhile fun piece => !isWild piece
  let text := joinWith ['/'] (written.map String.toList)
  let stripped := trimEnd (· == '/') text
  let parts := pieces.drop written.length
  (String.ofList (if stripped.isEmpty && !written.isEmpty then ['/'] else stripped),
    parts.dropLast.filter (· != "") ++ parts.getLast?.toList)

/-- The files that a pattern finds, in ascending order. -/
def Tree.glob (tree : Tree) (pattern : String) : List String :=
  let (folder, parts) := splitPattern pattern
  (Keyed.ascending (tree.expandParts [folder] parts)).filter tree.isFile

end MessageCatalog.Files
