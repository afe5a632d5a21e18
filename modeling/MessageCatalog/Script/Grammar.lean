import MessageCatalog.Script.Grammar.Markup
import MessageCatalog.Script.Grammar.Object
import MessageCatalog.Script.Grammar.Statement

/-!
# MessageCatalog.Script.Grammar -- the grammar as a whole

The forms of all phrases, and the lists that say which of two forms goes before the other where a
script could be read by either. A list holds levels and phrases, the first going before all that
follow; the first list that has both sides of a question decides it.
-/

namespace MessageCatalog.Script

/-- The forms of all phrases. -/
def grammar : Rules :=
  moduleRules ++ statementRules ++ expressionRules ++ literalRules ++ objectRules ++
    functionRules ++ classRules ++ markupRules

/-- Something that has its place in an order of precedence. -/
inductive Contender where
  | level (l : Level)
  | phrase (p : Phrase)
  deriving DecidableEq, Repr

instance : Coe Level Contender := ⟨.level⟩

instance : Coe Phrase Contender := ⟨.phrase⟩

/-- The orders of precedence. -/
def precedences : List (List Contender) :=
  [[Level.member, Level.templateCall, Level.call, Phrase.update, Level.unary, Level.power,
      Level.product, Level.sum, Level.shift, Level.relation, Level.equality, Level.bitAnd,
      Level.bitXor, Level.bitOr, Level.logicalAnd, Level.logicalOr, Level.ternary,
      Phrase.sequence, Phrase.arrowFunction],
    [Level.assign, Phrase.primary],
    [Level.member, Level.templateCall, Level.new, Level.call, Phrase.expression],
    [Level.declare, Level.literal],
    [Phrase.primary, Phrase.block, Level.object],
    [Phrase.metaProperty, Phrase.importWord],
    [Phrase.importStatement, Phrase.importWord],
    [Phrase.exportStatement, Phrase.primary],
    [Phrase.lexicalDeclaration, Phrase.primary]]

/-- A form that could be taken: its level, and the phrases that it would make up. -/
structure Claim where
  level : Option Level
  phrases : List Phrase

/-- Whether a contender is what a form stands for. -/
def Claim.includes (claim : Claim) : Contender → Bool
  | .level l => claim.level == some l
  | .phrase p => claim.phrases.contains p

/-- How two forms stand in one order of precedence, if both have a place in it. -/
def compareIn (first second : Claim) :
    (sawFirst sawSecond : Bool) → List Contender → Option Ordering
  | _, _, [] => none
  | sawFirst, sawSecond, c :: cs =>
    if first.includes c then
      if sawSecond then some .lt else compareIn first second true sawSecond cs
    else if second.includes c then
      if sawFirst then some .gt else compareIn first second sawFirst true cs
    else compareIn first second sawFirst sawSecond cs

/-- Which of two forms goes before the other. -/
def comparePrecedence (first second : Claim) : Ordering :=
  (precedences.findSome? (compareIn first second false false)).getD .eq

end MessageCatalog.Script
