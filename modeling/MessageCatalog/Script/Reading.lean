import MessageCatalog.Script.Scan
import MessageCatalog.Script.Stack

/-!
# MessageCatalog.Script.Reading -- reading a script in every possible way

Where the grammar leaves a choice open, a script is read in several ways side by side. A way that
comes upon a terminal it cannot take is given up as long as another one goes on; ways that meet are
joined; and there are never more than a few of them. A script is in order if one way comes to its
end, and only then it has tokens. Which kind a token is depends on its place in the grammar.
-/

namespace MessageCatalog.Script

/-! ## Ways of reading -/

/-- What becomes of a way of reading. -/
inductive Standing where
  | active
  /-- It has come upon a terminal that it cannot take. -/
  | stuck
  /-- It has come to the end, or has been joined into another. -/
  | ended
  deriving DecidableEq, Repr, Inhabited

/-- A way of reading: the cell on top of its stack. -/
structure Branch where
  top : Nat
  standing : Standing := .active
  deriving Inhabited

/-- What has been read so far, in all ways. -/
structure Progress where
  cells : Cells
  branches : Array Branch
  /-- How far the foremost way has come. -/
  reached : Nat
  /-- The best reading of the whole script so far. -/
  finished : Option Tree

/-- Reading in all ways, while the states of the grammar are found as they are needed. -/
abbrev Reading := StateT Progress (StateM Automaton)

/-- The number of ways that are followed from one terminal to the next. -/
def maxBranches : Nat := 6

/-- How many more there may be in between. -/
def branchOverflow : Nat := 4

namespace Reading

/-- What can be done in a state at a terminal. -/
def act (state : Nat) (terminal : Symbol) : Reading Actions :=
  fun progress a =>
    let (actions, a) := a.act state terminal
    ((actions, progress), a)

/-- The state behind a symbol. -/
def way (state : Nat) (s : Symbol) : Reading (Option Nat) :=
  fun progress a =>
    let (reached, a) := a.way state s
    ((reached, progress), a)

/-- What a state expects. -/
def expected (state : Nat) : Reading TerminalSet :=
  fun progress a => (((a.state state).expected, progress), a)

/-- A way of reading by its number. -/
def branch (i : Nat) : Reading Branch := do return (← get).branches.getD i default

/-- The cell on top of a way's stack. -/
def top (i : Nat) : Reading Cell := do
  let progress ← get
  return progress.cells.cell (progress.branches.getD i default).top

/-- The number of ways. -/
def count : Reading Nat := do return (← get).branches.size

/-- Changes a way. -/
def setBranch (i : Nat) (b : Branch) : Reading Unit :=
  modify fun progress => { progress with branches := progress.branches.setIfInBounds i b }

/-- Changes what becomes of a way. -/
def setStanding (i : Nat) (standing : Standing) : Reading Unit := do
  setBranch i { ← branch i with standing := standing }

/-- Drops a way; those behind it move up. -/
def dropBranch (i : Nat) : Reading Unit :=
  modify fun progress => { progress with branches := progress.branches.eraseIdxIfInBounds i }

/-- Puts a tree onto a cell and gives the number of the new cell. -/
def put (below : Nat) (tree : Tree) (state : Nat) : Reading Nat := do
  modify fun progress => { progress with cells := progress.cells.put below tree state }
  return (← get).cells.size - 1

/-- Goes on with a way over a tree. -/
def push (i : Nat) (tree : Tree) (state : Nat) : Reading Unit := do
  setBranch i { ← branch i with top := ← put (← branch i).top tree state }

/-! ## Joining ways -/

/-- Joins the second of two ways into the first if both go on in one state at one place, and drops
it. -/
def join (first second : Nat) : Reading Bool := do
  let a ← branch first
  let b ← branch second
  if a.standing != .active || b.standing != .active then return false
  if !(← get).cells.meet a.top b.top then return false
  modify fun progress => { progress with cells := progress.cells.join a.top b.top }
  dropBranch second
  return true

/-- Joins a new way into one of some earlier ways if possible. The way from which it comes is
excepted. -/
def joinEarlier (own new : Nat) : List Nat → Reading Unit
  | [] => pure ()
  | j :: js => do
    if j != own then
      if ← join j new then return
    joinEarlier own new js

/-! ## Closing a phrase -/

/-- Splits off what stands outside the grammar at the end of a row. -/
def splitExtras (row : List Tree) : List Tree × List Tree :=
  let extras := (row.reverse.takeWhile Tree.isExtra).reverse
  (row.take (row.length - extras.length), extras)

/-- The best of several rows of parts as a tree, and what stands outside the grammar behind it. -/
def bestRow (p : Production) (number : Nat) (place : Place) :
    List (List Tree) → Tree × List Tree
  | [] => (.ofParts p.result number p.weight place [], [])
  | first :: others =>
    let (parts, extras) := splitExtras first
    let best := others.foldl (fun (known : Tree × List Tree) row =>
      let (parts, extras) := splitExtras row
      let other := Tree.ofParts p.result number 0 place parts
      if known.1.yields other then (other, extras) else known)
      (Tree.ofParts p.result number 0 place parts, extras)
    (.ofParts p.result number p.weight place best.1.parts, best.2)

/-- Puts trees that stand outside the grammar onto a cell and gives the number of the last cell. -/
def putExtras (state : Nat) : (cell : Nat) → List Tree → Reading Nat
  | cell, [] => return cell
  | cell, t :: ts => do putExtras state (← put cell t state) ts

/-- Closes a phrase on the stack of a way, once for every cell that is below it. Every such cell
begins a new way, which is joined into an earlier one if possible. -/
def closeOnto (own number : Nat) (p : Production) (limit : Nat) :
    List (Nat × List (List Tree)) → Reading Unit
  | [] => pure ()
  | (cell, rows) :: groups => do
    let new ← count
    if new ≤ limit then
      let below := (← get).cells.cell cell
      let (tree, extras) := bestRow p number below.place rows
      match ← way below.state p.result with
      | none => pure ()
      | some state =>
        let last ← putExtras state (← put cell tree state) extras
        modify fun progress => { progress with branches := progress.branches.push { top := last } }
        joinEarlier own new (List.range new)
    closeOnto own number p limit groups

/-- Closes a phrase on the stack of a way. Gives the number of the first new way, if any is left. -/
def close (own number : Nat) : Reading (Option Nat) := do
  let before ← count
  let p := productions.getD number goalProduction
  let progress ← get
  let ended := (progress.branches.filter fun b => b.standing == .ended).size
  let ways := progress.cells.popped (progress.branches.getD own default).top p.steps.size
  closeOnto own number p (maxBranches + branchOverflow + ended) (Cells.byCell ways)
  return if before < (← count) then some before else none

/-- Closes phrases one after another. Gives the first of the ways that the last of them began. -/
def closeAll (own : Nat) : (last : Option Nat) → List Nat → Reading (Option Nat)
  | last, [] => return last
  | last, number :: numbers => do
    match ← close own number with
    | none => closeAll own last numbers
    | some first => closeAll own (some first) numbers

/-! ## Coming to the end -/

/-- A whole script, given what is on the stack at its end. -/
def wholeOf (row : List Tree) : Tree :=
  let parts := row.flatMap fun t => if t.isExtra then [t] else t.parts
  let production := (row.find? fun t => !t.isExtra).elim 0 fun t => match t with
    | .node _ p _ _ _ => p
    | .leaf _ _ _ => 0
  .ofParts Phrase.script.symbol production 0 ⟨0, []⟩ parts

/-- Ends a way at the end of the script, and keeps the better reading. -/
def accept (own : Nat) (ending : Tree) : Reading Unit := do
  let progress ← get
  let ways := progress.cells.toBottom (progress.branches.getD own default).top
  let better (known : Option Tree) (d : Cells.Descent) : Option Tree :=
    let whole := wholeOf (d.trees ++ [ending])
    match known with
    | none => some whole
    | some t => if t.yields whole then some whole else some t
  modify fun progress => { progress with finished := ways.foldl better progress.finished }
  setStanding own .ended

/-! ## Going on -/

/-- Does what can be done on a way at a terminal, until the terminal is taken. A keyword that cannot
stand in its place is a name if that can. -/
def proceed (own : Nat) (span : Span) (isKeyword : Bool) :
    (bound : Nat) → (terminal : Symbol) → Reading Unit
  | 0, _ => setStanding own .stuck
  | bound + 1, terminal => do
    let state := (← top own).state
    let actions ← act state terminal
    let isExtra := (terminalTable.getD terminal default).isComment && !actions.any
    let leaf := Tree.leaf terminal span isExtra
    if isExtra then push own leaf state
    else
      let last ← closeAll own none actions.closes
      if actions.accepts then accept own (.leaf terminal span true)
      else match actions.shift, last with
        | some next, _ => push own leaf next
        | none, some first =>
          let replacing ← branch first
          setBranch own replacing
          dropBranch first
          proceed own span isKeyword bound terminal
        | none, none =>
          if !actions.closes.isEmpty then setStanding own .ended
          else
            let text := match terminalTable.getD terminal default with
              | .exact text => text
              | _ => ""
            let isReserved :=
              !expects (← expected state) terminalCount && reservedWords.contains text
            if isKeyword && terminal != nameSymbol && !isReserved &&
                (← act state nameSymbol).any then
              proceed own span isKeyword bound nameSymbol
            else setStanding own .stuck

/-- Reads one terminal on a way. -/
def advance (own bound : Nat) : Reading Unit := do
  let cell ← top own
  match scan (← expected cell.state) cell.place.rest with
  | none => setStanding own .stuck
  | some found =>
    let start := cell.place.offset + found.gap
    let span : Span := ⟨cell.place.offset, start, cell.place.forward (found.gap + found.length)⟩
    let isKeyword := (terminalTable.getD found.symbol default).isWord
    proceed own span isKeyword bound found.symbol

/-- Reads on a way until it has come further than all ways before it, or as far as they have. -/
def visit (own bound : Nat) : (steps : Nat) → Reading Unit
  | 0 => pure ()
  | steps + 1 => do
    if (← branch own).standing != .active then return
    advance own bound
    let offset := (← top own).place.offset
    let reached := (← get).reached
    if reached < offset || (own != 0 && offset == reached) then
      modify fun progress => { progress with reached := offset }
    else visit own bound steps

/-- Reads on all ways in turn, also on those that begin meanwhile. -/
def visitAll (bound : Nat) : (ways : Nat) → (own : Nat) → Reading Unit
  | 0, _ => pure ()
  | ways + 1, own => do
    if own < (← count) then
      visit own bound bound
      visitAll bound ways (own + 1)

/-! ## Keeping the best ways -/

/-- How promising a way is: whether it goes on, and how heavy it is. -/
def promise (i : Nat) : Reading (Bool × Int) := do
  let b ← branch i
  return (b.standing != .stuck, (← top i).weight)

/-- Compares a way with those before it. A way that is stuck is dropped for one that is not; ways
that meet are joined; a heavier way changes places with a lighter one before it. Says whether the
way is left, and where. -/
def settleAgainst : (bound : Nat) → (i j : Nat) → (own : Bool × Int) → Reading (Option Nat)
  | 0, i, _, _ => return some i
  | bound + 1, i, j, own => do
    if i ≤ j then return some i
    let other ← promise j
    if other.1 && !own.1 then
      dropBranch i
      return none
    else if !other.1 && own.1 then
      dropBranch j
      settleAgainst bound (i - 1) j own
    else if ← join j i then return none
    else
      if other.2 < own.2 then
        let a ← branch i
        let b ← branch j
        setBranch i b
        setBranch j a
      settleAgainst bound i (j + 1) own

/-- Drops the ways that are over, and compares all others with each other. -/
def condenseFrom : (bound : Nat) → (i : Nat) → Reading Unit
  | 0, _ => pure ()
  | bound + 1, i => do
    if i < (← count) then
      if (← branch i).standing == .ended then
        dropBranch i
        condenseFrom bound i
      else
        match ← settleAgainst bound i 0 (← promise i) with
        | some i => condenseFrom bound (i + 1)
        | none => condenseFrom bound i

/-- Keeps the best ways, and not too many of them. -/
def condense : Reading Unit := do
  condenseFrom (4 * (← count) * (← count) + 4) 0
  modify fun progress => { progress with branches := progress.branches.take maxBranches }

/-- Reads in rounds, until no way goes on. -/
def rounds (bound : Nat) : (count : Nat) → Reading Unit
  | 0 => pure ()
  | left + 1 => do
    visitAll bound bound 0
    condense
    if (← get).branches.any (·.standing == .active) then rounds bound left

end Reading

/-- A reading of a whole script, `none` if it is not in order. A null character stands nowhere in a
script, neither in a token nor between tokens. -/
def read? (script : List Char) : Option Tree :=
  if script.contains '\x00' then none else
  let cells : Cells := #[⟨0, ⟨0, script⟩, 0, []⟩]
  let progress : Progress := ⟨cells, #[{ top := 0 }], 0, none⟩
  let bound := 16 * script.length + 256
  ((Reading.rounds bound bound).run progress |>.run .start).1.2.finished

/-! ## The tokens of a script -/

/-- A script that is not in order. -/
inductive SyntaxFault where
  | unreadable
  deriving DecidableEq, Repr

/-- The report of a fault. -/
def SyntaxFault.message : SyntaxFault → String
  | .unreadable => "script syntax error"

/-- The tokens of a script. -/
def tokenize (script : List Char) : Except SyntaxFault Tokens :=
  match read? script with
  | some tree => .ok (tree.tokens script)
  | none => .error .unreadable

end MessageCatalog.Script
