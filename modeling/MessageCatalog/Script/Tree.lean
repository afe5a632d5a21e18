import MessageCatalog.Script.Item
import MessageCatalog.Text.Cursor

/-!
# MessageCatalog.Script.Tree -- readings of a script

A reading of a part of a script is a tree whose leaves are terminals. Of two readings of the same
part, the heavier one is taken; of equally heavy ones, the one that comes first when they are
compared from the top down and from the left to the right.
-/

namespace MessageCatalog.Script

open MessageCatalog.Text

/-! ## Places and trees -/

/-- A place in a script: how many characters are before it, and those behind it. -/
structure Place where
  offset : Nat
  rest : List Char
  deriving Repr, Inhabited

/-- The place so many characters further on. -/
def Place.forward (place : Place) (count : Nat) : Place :=
  ⟨place.offset + count, place.rest.drop count⟩

/-- Where a part of a script stands: where the white space before it starts, where it starts itself,
and where it ends. -/
structure Span where
  origin : Nat
  start : Nat
  stop : Place
  deriving Repr, Inhabited

/-- A part of a script as it was read. -/
inductive Tree where
  /-- A terminal. One that stands outside the grammar, such as a comment, is extra. -/
  | leaf (symbol : Symbol) (span : Span) (isExtra : Bool)
  /-- The parts of a production. -/
  | node (symbol : Symbol) (production : Nat) (span : Span) (weight : Int) (parts : List Tree)
  deriving Inhabited

namespace Tree

/-- What was read. -/
def symbol : Tree → Symbol
  | leaf s _ _ => s
  | node s _ _ _ _ => s

/-- Where it stands. -/
def span : Tree → Span
  | leaf _ p _ => p
  | node _ _ p _ _ => p

/-- Its weight, that of its parts included. -/
def weight : Tree → Int
  | leaf _ _ _ => 0
  | node _ _ _ w _ => w

/-- Its parts. -/
def parts : Tree → List Tree
  | leaf _ _ _ => []
  | node _ _ _ _ ps => ps

/-- Whether it stands outside the grammar. -/
def isExtra : Tree → Bool
  | leaf _ _ e => e
  | node _ _ _ _ _ => false

/-- The parts of a production put together, at a place if there are none. -/
def ofParts (symbol : Symbol) (production : Nat) (weight : Int) (place : Place)
    (parts : List Tree) : Tree :=
  let span : Span := match parts with
    | [] => ⟨place.offset, place.offset, place⟩
    | first :: rest =>
      ⟨first.span.origin, first.span.start, (rest.getLastD first).span.stop⟩
  node symbol production span ((parts.map Tree.weight).foldl (· + ·) weight) parts

/-- Whether two trees are alike as far as reading on is concerned: the same symbol at the same place
with as many parts. -/
def resembles (a b : Tree) : Bool :=
  a.symbol == b.symbol && a.span.origin == b.span.origin && a.span.start == b.span.start &&
    a.span.stop.offset == b.span.stop.offset && a.parts.length == b.parts.length &&
    a.isExtra == b.isExtra

/-! ## Comparing trees -/

/-- What trees hold in all; a tree is larger than its parts together. -/
noncomputable def volume : List Tree → Nat
  | [] => 0
  | t :: ts => sizeOf t + volume ts

theorem volume_append (a b : List Tree) : volume (a ++ b) = volume a + volume b := by
  induction a with
  | nil => simp [volume]
  | cons t ts ih => simp only [List.cons_append, volume, ih, Nat.add_assoc]

theorem volume_le_sizeOf (trees : List Tree) : volume trees ≤ sizeOf trees := by
  induction trees with
  | nil => simp [volume]
  | cons t ts ih =>
    simp only [volume, List.cons.sizeOf_spec]
    omega

theorem volume_parts (t : Tree) : volume t.parts < sizeOf t := by
  cases t with
  | leaf s p e => simp [parts, volume]
  | node s r p w ps =>
    have := volume_le_sizeOf ps
    simp only [parts, node.sizeOf_spec]
    omega

/-- Which of two rows of trees comes first: at the first difference, the symbol of lower rank, or of
equal symbols the one with fewer parts. -/
def compareRows : List Tree → List Tree → Ordering
  | a :: as, b :: bs =>
    match compare a.symbol b.symbol with
    | .eq =>
      match compare a.parts.length b.parts.length with
      | .eq => compareRows (a.parts ++ as) (b.parts ++ bs)
      | other => other
    | other => other
  | _, _ => .eq
termination_by row => volume row
decreasing_by
  have := volume_parts a
  rw [volume_append]
  simp only [volume]
  omega

/-- Whether the second of two readings of the same part is taken. -/
def yields (known other : Tree) : Bool :=
  if known.weight != other.weight then known.weight < other.weight
  else compareRows [known] [other] == .gt

/-! ## Tokens -/

/-- The kinds that a production gives to its parts; what stands outside the grammar gets none. -/
def kindsOf : List Step → List Tree → List (Tree × Option TokenKind)
  | _, [] => []
  | steps, t :: ts =>
    if t.isExtra then (t, none) :: kindsOf steps ts
    else (t, steps.head?.bind (·.kind)) :: kindsOf steps.tail ts

theorem map_fst_kindsOf (steps : List Step) (trees : List Tree) :
    (kindsOf steps trees).map (·.1) = trees := by
  induction trees generalizing steps with
  | nil => simp [kindsOf]
  | cons t ts ih => unfold kindsOf; split <;> simp [ih]

/-- A token by its kind and its ends. -/
structure Extent where
  kind : TokenKind
  start : Nat
  stop : Nat
  deriving DecidableEq, Repr

/-- The token that a tree is on its own, if it is one. -/
def extent? (t : Tree) (kind : Option TokenKind) : Option Extent :=
  let atomic := (phraseOf? t.symbol).bind Phrase.tokenKind?
  match t with
  | leaf s p isExtra =>
    let own := kind.getD (terminalTable.getD s default).kind
    if isExtra || p.start == p.stop.offset then none else some ⟨own, p.start, p.stop.offset⟩
  | node _ _ p _ _ => atomic.map fun kind => ⟨kind, p.start, p.stop.offset⟩

/-- The tokens of a row of trees, given the kinds that the grammar gives to them, behind those
already found. -/
def extents : List (Tree × Option TokenKind) → Array Extent → Array Extent
  | [], found => found
  | (t, kind) :: rest, found =>
    match extent? t kind with
    | some e => extents rest (found.push e)
    | none =>
      let steps := match t with
        | leaf _ _ _ => []
        | node _ production _ _ _ => ((productions[production]?).map (·.steps.toList)).getD []
      extents (kindsOf steps t.parts ++ rest) found
termination_by row => volume (row.map (·.1))
decreasing_by
  · simp only [List.map_cons, volume]
    have : 0 < sizeOf t := by cases t <;> simp only [leaf.sizeOf_spec, node.sizeOf_spec] <;> omega
    omega
  · have := volume_parts t
    rw [List.map_append, map_fst_kindsOf, volume_append]
    simp only [List.map_cons, volume]
    omega

/-- The tokens at some places of a text, in order. -/
def slice : List Extent → (offset : Nat) → Position → List Char → Tokens
  | [], _, _, _ => []
  | e :: es, offset, position, text =>
    let position := (text.take (e.start - offset)).foldl Position.next position
    let here := text.drop (e.start - offset)
    let own := here.take (e.stop - e.start)
    ⟨e.kind, String.ofList own, position⟩ ::
      slice es e.stop (own.foldl Position.next position) (here.drop (e.stop - e.start))

/-- The tokens of a reading of a text. -/
def tokens (text : List Char) (t : Tree) : Tokens :=
  slice (extents [(t, none)] #[]).toList 0 Position.start text

end Tree

end MessageCatalog.Script
