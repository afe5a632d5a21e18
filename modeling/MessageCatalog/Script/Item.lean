import MessageCatalog.Script.Production

/-!
# MessageCatalog.Script.Item -- productions under way

An item is a production together with the number of its parts that have been read. Items are
numbered so that fewer parts come first, then phrases of lower rank. Two items that have the same
parts before them and count the same when they are done share one number, whatever parts are behind
them.

Sets of terminals are numbers whose binary digits tell which terminals are in them. One digit more
tells whether the place is one where every word is a name.
-/

namespace MessageCatalog.Script

/-! ## Sets of terminals -/

/-- A set of terminals. -/
abbrev TerminalSet := Nat

/-- The set with one terminal. -/
def TerminalSet.only (s : Symbol) : TerminalSet := 1 <<< s

/-- The mark of places where every word is a name, as a set. -/
def anyWordMark : TerminalSet := .only terminalCount

/-- What a set has if the part is one where every word is a name. -/
def Step.mark (step : Step) : TerminalSet := if step.anyWord then anyWordMark else 0

/-- The productions of a symbol, by number. -/
def productionsOf : Array (Array Nat) :=
  let start : Array (Array Nat) := Array.replicate (goal + 1) #[]
  productions.toList.zipIdx.foldl (fun table (p, i) => table.modify p.result (·.push i)) start

/-- One round of gathering the terminals with which productions start. -/
def gatherFirsts (firsts : Array TerminalSet) : Array TerminalSet :=
  productions.foldl (fun table p =>
    match p.steps[0]? with
    | none => table
    | some step =>
      let more := table.getD step.symbol 0 ||| step.mark
      table.modify p.result (· ||| more)) firsts

/-- Repeats a function until it changes nothing, at most so many times. -/
def settle {α : Type} [BEq α] (f : α → α) : (rounds : Nat) → α → α
  | 0, x => x
  | rounds + 1, x => if f x == x then x else settle f rounds (f x)

/-- The terminals with which a symbol can start, for every symbol. -/
def firstTable : Array TerminalSet :=
  settle gatherFirsts goal
    ((Array.range (goal + 1)).map fun s => if isTerminal s then .only s else 0)

/-- The terminals with which a symbol can start. -/
def firstOf (s : Symbol) : TerminalSet := firstTable.getD s 0

/-! ## Items -/

/-- What makes two items the same: what they count for when they are done, what is still to be read,
and how the parts already read are reported. -/
structure ItemKey where
  result : Symbol
  dot : Nat
  size : Nat
  weight : Int
  level : Option Level
  side : Option Side
  behind : List (Option TokenKind)
  ahead : List Step
  deriving DecidableEq, Repr, Inhabited, Hashable

/-- The key of a production with some parts read. Before the first part a level plays no part. -/
def Production.key (p : Production) (dot : Nat) : ItemKey :=
  { result := p.result
    dot := dot
    size := p.steps.size
    weight := p.weight
    level := if dot == 0 then none else p.level
    side := if dot == 0 then none else p.side
    behind := ((p.steps.toList).take dot).map (·.kind)
    ahead := (p.steps.toList).drop dot }

/-- The order of items. -/
def ItemKey.before (a b : ItemKey) : Bool :=
  if a.dot != b.dot then a.dot < b.dot
  else if a.result != b.result then a.result < b.result
  else if a.weight != b.weight then a.weight < b.weight
  else a.size ≤ b.size

/-- An item: the production, the number of parts read, and what comes next. -/
structure Item where
  production : Nat
  /-- Whether any part has been read. -/
  begun : Bool
  /-- The part that comes next, if there is one. -/
  next : Option Step
  /-- The number of the item behind the next part. -/
  advanced : Nat
  /-- The terminals with which the part behind the next one can start, if there is one. -/
  follow : Option TerminalSet
  deriving Repr, Inhabited

/-- The keys of all items in order, each with the first production that has it. -/
def itemKeys : Array (ItemKey × Nat × Nat) :=
  let all := productions.toList.zipIdx.flatMap fun (p, i) =>
    (List.range (p.steps.size + 1)).map fun dot => (p.key dot, i, dot)
  (all.mergeSort fun a b => a.1.before b.1).toArray

/-- The numbers of the items by their keys. -/
def itemNumbers : Std.HashMap ItemKey Nat :=
  itemKeys.foldl (fun m (k, _, _) => if m.contains k then m else m.insert k m.size) {}

/-- The number of a production with some parts read. -/
def itemNumber (production dot : Nat) : Nat :=
  match productions[production]? with
  | none => 0
  | some p => itemNumbers.getD (p.key dot) 0

/-- All items by number. -/
def items : Array Item :=
  itemKeys.foldl (fun table (k, i, dot) =>
    if itemNumbers.getD k 0 != table.size then table
    else
      table.push
        { production := i
          begun := dot != 0
          next := k.ahead.head?
          advanced := itemNumber i (dot + 1)
          follow := (k.ahead[1]?).map fun step => firstOf step.symbol }) #[]

/-- An item by its number. -/
def itemOf (number : Nat) : Item := items.getD number default

/-! ## Left corners -/

/-- What is known of a phrase that stands at the start of another: the terminals that can follow it
there, and whether what follows the other can follow it too. -/
structure Corner where
  follow : TerminalSet
  open' : Bool
  deriving DecidableEq, Repr, Inhabited

/-- What two ways to the same corner amount to. -/
def Corner.join (a b : Corner) : Corner := ⟨a.follow ||| b.follow, a.open' || b.open'⟩

/-- The symbols with which the productions of a symbol start, as far as they are not terminals. -/
def directCorners (s : Symbol) : List (Symbol × Corner) :=
  let add (found : List (Symbol × Corner)) (i : Nat) : List (Symbol × Corner) :=
    match productions[i]? with
    | none => found
    | some p =>
      match p.steps[0]? with
      | none => found
      | some step =>
        if isTerminal step.symbol then found
        else
          let corner : Corner := match p.steps[1]? with
            | none => ⟨0, true⟩
            | some second => ⟨firstOf second.symbol, false⟩
          match found.lookup step.symbol with
          | none => (step.symbol, corner) :: found
          | some known =>
            (step.symbol, known.join corner) :: found.filter (·.1 != step.symbol)
  (productionsOf.getD s #[]).foldl add []

/-- The direct corners of all symbols. -/
def directCornerTable : Array (List (Symbol × Corner)) :=
  (Array.range (goal + 1)).map directCorners

/-- The corners of a symbol found so far, by symbol. -/
abbrev Corners := Array (Option Corner)

/-- One round of gathering corners: what starts a corner is a corner too. -/
def gatherCorners (corners : Corners) : Corners :=
  (List.range corners.size).foldl (fun table s =>
    match table.getD s none with
    | none => table
    | some outer =>
      (directCornerTable.getD s []).foldl (fun table (inner, direct) =>
        let corner : Corner :=
          if direct.open' then ⟨direct.follow ||| outer.follow, outer.open'⟩ else direct
        table.modify inner fun known => some ((known.getD ⟨0, false⟩).join corner)) table) corners

/-- The corners of a symbol: itself, and whatever its productions start with. -/
def cornersOf (s : Symbol) : Corners :=
  settle gatherCorners goal ((Array.replicate (goal + 1) none).set! s (some ⟨0, true⟩))

/-- The corners of all symbols. -/
def cornerTable : Array Corners :=
  (Array.range (goal + 1)).map fun s => if isTerminal s then #[] else cornersOf s

/-- For every symbol, the items that have read just it, with what they make up. -/
def startTable : Array (List (Symbol × Nat)) :=
  let start : Array (List (Symbol × Nat)) := Array.replicate (goal + 1) []
  productions.toList.zipIdx.foldl (fun table (p, i) =>
    match p.steps[0]? with
    | none => table
    | some step =>
      let entry := (p.result, itemNumber i 1)
      table.modify step.symbol fun known =>
        if known.contains entry then known else entry :: known) start

/-- The items that are done without reading anything, with what they make up. -/
def emptyItems : List (Symbol × Nat) :=
  productions.toList.zipIdx.filterMap fun (p, i) =>
    if p.steps.isEmpty then some (p.result, itemNumber i 0) else none

end MessageCatalog.Script
