import MessageCatalog.Text.Character

/-!
# MessageCatalog.Pattern.Basic -- search patterns

Patterns select files, find the locale in a path and decide which links are allowed. A pattern is a
tree; sets of characters say for themselves whether case matters, so that matching needs no
settings.
-/

namespace MessageCatalog

namespace Pattern

open MessageCatalog.Text

/-! ## Sets of characters -/

/-- The classes that have a letter of their own. -/
inductive CharClass where
  | digit
  | space
  | word
  deriving DecidableEq, Repr

/-- One item of a set. -/
inductive SetItem where
  | range (first last : Char)
  /-- A class, or everything outside it; `ascii` keeps the class to ASCII. -/
  | ofClass (kind : CharClass) (negated ascii : Bool)
  deriving DecidableEq, Repr

/-- A set of characters. -/
structure CharSet where
  items : List SetItem
  negated : Bool := false
  ignoreCase : Bool := false
  deriving DecidableEq, Repr

/-- Whether a character belongs to a class. -/
def CharClass.contains (kind : CharClass) (ascii : Bool) (c : Char) : Bool :=
  match kind with
  | .digit => if ascii then isAsciiDigit c else isDecimalDigit c
  | .space => if ascii then c.toNat < 0x80 && isBlank c && !(0x1c ≤ c.toNat && c.toNat ≤ 0x1f)
    else isBlank c
  | .word => if ascii then isAsciiAlphanumeric c || c == '_' else isWord c

/-- Whether a character belongs to an item. Without regard to case, a range holds a letter if it
holds its small or its capital form. -/
def SetItem.contains (ignoreCase : Bool) (c : Char) : SetItem → Bool
  | .range first last =>
    let within (x : Char) : Bool := first ≤ x && x ≤ last
    within c || (ignoreCase &&
      (within (smallLetter c) || within c.toUpper || (first == last && sameLetter first c)))
  | .ofClass kind negated ascii => kind.contains ascii c != negated

/-- Whether a character belongs to a set. -/
def CharSet.contains (set : CharSet) (c : Char) : Bool :=
  (set.items.any fun item => item.contains set.ignoreCase c) != set.negated

/-- The set of one character. -/
def CharSet.single (c : Char) (ignoreCase : Bool) : CharSet := ⟨[.range c c], false, ignoreCase⟩

/-- The set of all characters but the line feed. -/
def CharSet.notLineFeed : CharSet := ⟨[.range '\n' '\n'], true, false⟩

/-- The set of all characters. -/
def CharSet.all : CharSet := ⟨[], true, false⟩

/-! ## Patterns -/

/-- A condition on a place between two characters. -/
inductive Boundary where
  | textStart
  | textEnd
  /-- The end of the text, or the place before a line feed that ends it. -/
  | lastLineEnd
  | lineStart
  | lineEnd
  | wordEdge (negated ascii : Bool)
  deriving DecidableEq, Repr

/-- How a repetition chooses its length. -/
inductive Greed where
  | longest
  | shortest
  /-- The longest, and never a shorter one afterwards. -/
  | committed
  deriving DecidableEq, Repr

end Pattern

open Pattern in
/-- A pattern. -/
inductive Pattern where
  | empty
  | one (set : CharSet)
  | boundary (b : Boundary)
  | both (first second : Pattern)
  | either (first second : Pattern)
  | repeated (body : Pattern) (least : Nat) (most : Option Nat) (greed : Greed)
  | capture (index : Nat) (body : Pattern)
  /-- Matches where the text after the place matches, or does not. -/
  | ahead (body : Pattern) (negated : Bool)
  /-- Matches where the `width` characters before the place match, or do not. -/
  | behind (body : Pattern) (width : Nat) (negated : Bool)
  | atomic (body : Pattern)
  /-- The text that a group matched. -/
  | sameAs (index : Nat) (ignoreCase : Bool)
  | conditional (index : Nat) (yes no : Pattern)
  deriving Repr, Inhabited

namespace Pattern

/-- The lengths of the texts that a pattern matches: the least, and the greatest if there is one. -/
def width : Pattern → Nat × Option Nat
  | .empty => (0, some 0)
  | .one _ => (1, some 1)
  | .boundary _ => (0, some 0)
  | .both a b =>
    (a.width.1 + b.width.1, a.width.2.bind fun x => b.width.2.map fun y => x + y)
  | .either a b =>
    (min a.width.1 b.width.1, a.width.2.bind fun x => b.width.2.map fun y => max x y)
  | .repeated body least most _ =>
    (body.width.1 * least, most.bind fun n => body.width.2.map fun w => w * n)
  | .capture _ body => body.width
  | .ahead _ _ => (0, some 0)
  | .behind _ _ _ => (0, some 0)
  | .atomic body => body.width
  | .sameAs _ _ => (0, none)
  | .conditional _ yes no =>
    (min yes.width.1 no.width.1, yes.width.2.bind fun x => no.width.2.map fun y => max x y)

end Pattern

end MessageCatalog
