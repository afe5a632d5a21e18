import MessageCatalog.Script.Item

/-!
# MessageCatalog.Script.Automaton -- what can come next

A state is a set of items, each with the terminals that may follow what it makes up. States are
found as a script asks for them: the one behind a symbol is worked out when the symbol is first read
there, and kept. Where the next terminal allows both to go on and to close a phrase, levels and
sides decide; what they leave open is tried both ways.
-/

namespace MessageCatalog.Script

/-! ## States -/

/-- The items of a state in order, with the terminals that may follow each. Items that have read
nothing are left out, since the others call for them. -/
abbrev Kernel := List (Nat × TerminalSet)

/-- A state and the terminals that it expects. -/
structure State where
  kernel : Kernel
  expected : TerminalSet
  deriving Repr, Inhabited

/-- The state of a script of which nothing has been read. -/
def startKernel : Kernel :=
  [(itemNumber (productions.size - 1) 0, .only Terminal.ending.symbol)]

/-- The items without parts that an item calls for, and what may follow them. -/
def emptyItemsOf (number : Nat) (follow : TerminalSet) : Kernel :=
  match (itemOf number).next with
  | none => []
  | some step =>
    let behind := ((itemOf number).follow).getD follow
    emptyItems.filterMap fun (s, j) =>
      ((cornerTable.getD step.symbol #[]).getD s none).map fun corner =>
        (j, if corner.open' then corner.follow ||| behind else corner.follow)

/-- The items of a kernel that are done, and what may follow them. -/
def doneItems (kernel : Kernel) : Kernel :=
  kernel.flatMap (fun (i, follow) => emptyItemsOf i follow) ++
    kernel.filter fun (i, _) => (itemOf i).next.isNone

/-- The terminals that an item expects. -/
def expectedOf (number : Nat) (follow : TerminalSet) : TerminalSet :=
  match (itemOf number).next with
  | none => follow
  | some step => firstOf step.symbol ||| step.mark

/-- The state with a kernel. -/
def State.ofKernel (kernel : Kernel) : State :=
  let own := kernel.foldl (fun set (i, follow) => set ||| expectedOf i follow) 0
  ⟨kernel, (doneItems kernel).foldl (fun set (_, follow) => set ||| follow) own⟩

/-- The items behind a symbol that one item allows. -/
def itemsBehind (s : Symbol) (number : Nat) (follow : TerminalSet) : Kernel :=
  let item := itemOf number
  match item.next with
  | none => []
  | some step =>
    let own : Kernel := if step.symbol == s then [(item.advanced, follow)] else []
    if isTerminal step.symbol then own
    else
      let behind := item.follow.getD follow
      let corners := cornerTable.getD step.symbol #[]
      (startTable.getD s []).foldl (fun kernel (result, j) =>
        match corners.getD result none with
        | none => kernel
        | some corner =>
          (j, if corner.open' then corner.follow ||| behind else corner.follow) :: kernel) own

/-- Puts items in order and what is known of equal ones together. -/
def gatherItems (kernel : Kernel) : Kernel :=
  (kernel.mergeSort fun a b => b.1 ≤ a.1).foldl (fun done (i, follow) =>
    match done with
    | [] => [(i, follow)]
    | (j, known) :: rest =>
      if i == j then (j, known ||| follow) :: rest else (i, follow) :: (j, known) :: rest) []

/-- The items of a kernel behind a symbol. -/
def kernelBehind (kernel : Kernel) (s : Symbol) : Kernel :=
  gatherItems (kernel.flatMap fun (i, follow) => itemsBehind s i follow)

/-- The symbol that all items of a kernel only rename what was read to, if there is one. -/
def renamed? (kernel : Kernel) : Option Symbol :=
  let result? (entry : Nat × TerminalSet) : Option Symbol := do
    let item := itemOf entry.1
    let p ← productions[item.production]?
    if item.next.isNone && p.isRenaming then some p.result else none
  match kernel with
  | [] => none
  | first :: rest =>
    match result? first with
    | none => none
    | some s => if rest.all fun entry => result? entry == some s then some s else none

/-- The items of a kernel behind a symbol. Where they only rename it, what counts is the other name,
at most so many times. -/
def kernelReached (kernel : Kernel) : (bound : Nat) → (s : Symbol) → Kernel
  | 0, s => kernelBehind kernel s
  | bound + 1, s =>
    let reached := kernelBehind kernel s
    match renamed? reached with
    | none => reached
    | some other =>
      match kernelReached kernel bound other with
      | [] => reached
      | further => further

/-! ## Choosing between actions -/

/-- What can be done at a terminal: phrases that can be closed, a state to go on to, or both. -/
structure Actions where
  /-- The productions that can be closed, in order. -/
  closes : List Nat := []
  /-- Whether the script can end here. -/
  accepts : Bool := false
  /-- The state behind the terminal. -/
  shift : Option Nat := none
  deriving Repr, Inhabited

/-- What is known of the productions that can be closed. -/
structure Closing where
  /-- The items that are done, the last one first. -/
  items : List Nat := []
  claim : Claim := ⟨none, []⟩
  /-- The sides to which the productions group. -/
  sides : List (Option Side) := []

/-- The production of an item. -/
def productionOf (number : Nat) : Production :=
  productions.getD (itemOf number).production goalProduction

/-- What an item stands for when it is compared with others. -/
def claimOf (number : Nat) : Claim :=
  let p := productionOf number
  ⟨if (itemOf number).begun then p.level else none, (phraseOf? p.result).toList⟩

/-- The side to which an item groups. -/
def sideOf (number : Nat) : Option Side :=
  if (itemOf number).begun then (productionOf number).side else none

/-- One more item that is done. It takes the place of those that it goes before. -/
def Closing.add (closing : Closing) (number : Nat) : Closing :=
  let claim := claimOf number
  let onto (known : Closing) : Closing :=
    { items := number :: known.items
      claim := ⟨claim.level, known.claim.phrases ++ claim.phrases⟩
      sides := sideOf number :: known.sides }
  if closing.items.isEmpty then onto closing
  else match comparePrecedence claim closing.claim with
    | .gt => onto ({} : Closing)
    | .eq => onto closing
    | .lt => closing

/-- What becomes of a terminal that can be read and that can also close a phrase. -/
inductive Verdict where
  | read
  | close
  | either
  deriving DecidableEq, Repr

/-- Decides between reading on and closing. Inside a repetition a phrase is closed as early as
possible. Else the side that goes before the other wins; of equals, the one that groups as all
closing productions say. -/
def judge (kernel : Kernel) (terminal : Symbol) (closing : Closing) : Verdict :=
  let reading := kernel.filter fun (i, _) =>
    (itemOf i).begun &&
      ((itemOf i).next.any fun step => (firstOf step.symbol).testBit terminal)
  let done := (doneItems kernel).filter fun (_, follow) => follow.testBit terminal
  let results := (reading ++ done).map fun (i, _) => (productionOf i).result
  let isRepeating := match results with
    | [] => false
    | s :: rest => isRepetition s && rest.all (· == s)
  if isRepeating then .close
  else
    let outcomes := reading.map fun (i, _) => comparePrecedence (claimOf i) closing.claim
    match outcomes.contains .gt, outcomes.contains .lt with
    | true, false => .read
    | false, true => .close
    | true, true => .either
    | false, false =>
      if closing.sides.all (· == some .left) then .close
      else if closing.sides.all (· == some .right) then .read
      else .either

/-! ## The states found so far -/

/-- The states found so far, and the ways between them. -/
structure Automaton where
  states : Array State
  numbers : Std.HashMap Kernel Nat
  /-- The state behind a symbol, by the number of the state and the symbol. -/
  ways : Std.HashMap (Nat × Symbol) (Option Nat)
  /-- What can be done, by the number of the state and the terminal. -/
  actions : Std.HashMap (Nat × Symbol) Actions

namespace Automaton

/-- Only the state in which nothing has been read. -/
def start : Automaton := ⟨#[.ofKernel startKernel], {(startKernel, 0)}, {}, {}⟩

/-- The state with a number. -/
def state (number : Nat) (a : Automaton) : State := a.states.getD number default

/-- The number of the state with a kernel, which is added if need be. -/
def intern (kernel : Kernel) (a : Automaton) : Nat × Automaton :=
  match a.numbers[kernel]? with
  | some number => (number, a)
  | none =>
    let number := a.states.size
    (number,
      { a with
        states := a.states.push (.ofKernel kernel)
        numbers := a.numbers.insert kernel number })

/-- The state behind a symbol, if the symbol is possible. -/
def way (number : Nat) (s : Symbol) (a : Automaton) : Option Nat × Automaton :=
  match a.ways[(number, s)]? with
  | some known => (known, a)
  | none =>
    match kernelReached (a.state number).kernel goal s with
    | [] => (none, { a with ways := a.ways.insert (number, s) none })
    | kernel =>
      let (reached, a) := a.intern kernel
      (some reached, { a with ways := a.ways.insert (number, s) (some reached) })

/-- What can be done at a terminal, worked out anew. -/
def workOut (number : Nat) (terminal : Symbol) (a : Automaton) : Actions × Automaton :=
  let kernel := (a.state number).kernel
  let done := (doneItems kernel).filter fun (_, follow) => follow.testBit terminal
  let closing := done.foldl (fun closing (i, _) => closing.add i) ({} : Closing)
  let (reached, a) := a.way number terminal
  let closes := closing.items.reverse
  let isGoal (i : Nat) : Bool := (productionOf i).result == goal
  let closed : Actions :=
    { closes := (closes.filter fun i => !isGoal i).map fun i => (itemOf i).production
      accepts := closes.any isGoal }
  match reached with
  | none => (closed, a)
  | some next =>
    if closes.isEmpty then ({ shift := some next }, a)
    else match judge kernel terminal closing with
      | .read => ({ shift := some next }, a)
      | .close => (closed, a)
      | .either => ({ closed with shift := some next }, a)

/-- What can be done at a terminal. -/
def act (number : Nat) (terminal : Symbol) (a : Automaton) : Actions × Automaton :=
  match a.actions[(number, terminal)]? with
  | some known => (known, a)
  | none =>
    let (found, a) := a.workOut number terminal
    (found, { a with actions := a.actions.insert (number, terminal) found })

end Automaton

/-- Whether anything can be done. -/
def Actions.any (actions : Actions) : Bool :=
  !actions.closes.isEmpty || actions.accepts || actions.shift.isSome

end MessageCatalog.Script
