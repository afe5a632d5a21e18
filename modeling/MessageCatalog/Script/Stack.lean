import MessageCatalog.Script.Tree

/-!
# MessageCatalog.Script.Stack -- stacks that share what they have in common

While a script can be read in several ways, every way has a stack of what it has read. The stacks
share their cells: a cell can have several cells below it, each reached over a tree that was read in
between. Where two ways meet in one state at one place, their cells become one.
-/

namespace MessageCatalog.Script

/-- A way down from a cell: the cell below, and what was read since. -/
structure Link where
  below : Nat
  tree : Tree
  deriving Inhabited

/-- A cell of the stacks: the state of the grammar, the place in the script, and the ways down, with
the weight of the heaviest. -/
structure Cell where
  state : Nat
  place : Place
  weight : Int
  links : List Link
  deriving Inhabited

/-- Makes a cell at least as heavy as a way down. -/
def Cell.raise (c : Cell) (weight : Int) : Cell :=
  if c.weight < weight then { c with weight := weight } else c

/-- All cells, by number. -/
abbrev Cells := Array Cell

namespace Cells

/-- A cell by its number. -/
def cell (cells : Cells) (number : Nat) : Cell := cells.getD number default

/-- Puts a tree onto a cell. The new cell is the last one. -/
def put (cells : Cells) (below : Nat) (tree : Tree) (state : Nat) : Cells :=
  let weight := (cells.cell below).weight + tree.weight
  cells.push ⟨state, tree.span.stop, weight, [⟨below, tree⟩]⟩

/-- Whether two cells are in one state at one place. -/
def meet (cells : Cells) (a b : Nat) : Bool :=
  (cells.cell a).state == (cells.cell b).state &&
    (cells.cell a).place.offset == (cells.cell b).place.offset

/-- The number of ways down that a cell keeps. -/
def maxLinks : Nat := 8

/-- Adds a way down to a cell. One that resembles a known way to the same cell takes its place if it
is heavier, and else is dropped; one that resembles a known way to another cell in the same state at
the same place is joined with it further down, at most so many cells deep. -/
def addLink : (depth : Nat) → Cells → (number : Nat) → Link → Cells
  | 0, cells, _, _ => cells
  | depth + 1, cells, number, link =>
    if link.below == number then cells
    else
      let weight := (cells.cell link.below).weight + link.tree.weight
      let links := (cells.cell number).links
      match links.findIdx? fun known =>
          known.tree.resembles link.tree &&
            (known.below == link.below || cells.meet known.below link.below) with
      | none =>
        if links.length == maxLinks then cells
        else cells.modify number fun c => { c with links := c.links ++ [link] }.raise weight
      | some i =>
        let known := links.getD i default
        if known.below == link.below then
          if known.tree.weight < link.tree.weight then
            cells.modify number fun c => { c with links := c.links.set i link, weight := weight }
          else cells
        else
          let joined := (cells.cell link.below).links.foldl
            (fun cells further => addLink depth cells known.below further) cells
          let weight := (joined.cell link.below).weight + link.tree.weight
          joined.modify number fun c => c.raise weight

/-- Joins the second of two cells that meet into the first. -/
def join (cells : Cells) (first second : Nat) : Cells :=
  (cells.cell second).links.foldl
    (fun cells link => addLink (cells.size + 1) cells first link) cells

/-! ## Going down -/

/-- A way down: the cell reached, and the trees passed, in the order of the script. -/
structure Descent where
  number : Nat
  trees : List Tree
  /-- How many of the trees do not stand outside the grammar. -/
  count : Nat
  deriving Inhabited

/-- The number of ways that are followed at one time. -/
def maxDescents : Nat := 64

/-- One way further down over a link. -/
def Descent.along (d : Descent) (link : Link) : Descent :=
  ⟨link.below, link.tree :: d.trees, if link.tree.isExtra then d.count else d.count + 1⟩

/-- What comes of going one cell further down on every way. -/
structure Descents where
  /-- Ways that have come far enough. -/
  done : List Descent := []
  /-- Ways that go on, in reverse. -/
  onward : List Descent := []
  /-- Ways that have split off, in reverse. -/
  split : List Descent := []
  total : Nat

/-- Goes one cell further down. Over the first link the way itself goes on; over the others, new
ways split off, as long as there are not too many. -/
def descendFrom (cells : Cells) (isDone : Cell → Descent → Bool) (acc : Descents) (d : Descent) :
    Descents :=
  let cell := cells.cell d.number
  if isDone cell d then { acc with done := d :: acc.done, total := acc.total - 1 }
  else match cell.links with
    | [] => { acc with total := acc.total - 1 }
    | first :: others =>
      let acc := others.foldl (fun (acc : Descents) link =>
        if acc.total < maxDescents then
          { acc with split := d.along link :: acc.split, total := acc.total + 1 }
        else acc) acc
      { acc with onward := d.along first :: acc.onward }

/-- The ways down that have come far enough, in the order in which they get there, none deeper than
so many cells. -/
def descend (cells : Cells) (isDone : Cell → Descent → Bool) :
    (depth : Nat) → List Descent → List Descent
  | 0, _ => []
  | _, [] => []
  | depth + 1, ways =>
    let round := ways.foldl (descendFrom cells isDone) { total := ways.length }
    round.done.reverse ++
      descend cells isDone depth (round.onward.reverse ++ round.split.reverse)

/-- The ways down over so many trees. -/
def popped (cells : Cells) (number count : Nat) : List Descent :=
  descend cells (fun _ d => d.count == count) (cells.size + 1) [⟨number, [], 0⟩]

/-- The ways down to the bottom. -/
def toBottom (cells : Cells) (number : Nat) : List Descent :=
  descend cells (fun c _ => c.links.isEmpty) (cells.size + 1) [⟨number, [], 0⟩]

/-- Puts ways to one cell together, cells in the order in which they are first reached. -/
def byCell (ways : List Descent) : List (Nat × List (List Tree)) :=
  let add (groups : List (Nat × List (List Tree))) (d : Descent) :
      List (Nat × List (List Tree)) :=
    if groups.any (·.1 == d.number) then
      groups.map fun (number, rows) =>
        if number == d.number then (number, rows ++ [d.trees]) else (number, rows)
    else groups ++ [(d.number, [d.trees])]
  ways.foldl add []

end Cells

end MessageCatalog.Script
