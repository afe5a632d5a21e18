import MessageCatalog.Script.Grammar
import Std.Data.HashMap

/-!
# MessageCatalog.Script.Production -- the grammar as productions

Every choice in a form is worked out beforehand, so that a production is a plain sequence of
symbols. A repetition becomes a symbol of its own, which stands for one of what is repeated or for
two repetitions side by side; equal repetitions share one symbol.

Symbols are numbered in the order of their rank: the terminals as the grammar brings them up, then
the phrases, then the repetitions, and last the goal, which stands for a whole script.
-/

namespace MessageCatalog.Script

/-! ## The symbols of the grammar -/

/-- The number of a terminal, a phrase, a repetition or the goal. -/
abbrev Symbol := Nat

namespace Rule

/-- The terminals of a rule in the order of the text. -/
def terminals : Rule → List Terminal
  | nothing | phrase _ => []
  | terminal t => [t]
  | both a b | either a b => a.terminals ++ b.terminals
  | repeated r | reported _ r | anyWord r => r.terminals

/-- The repetitions in a rule, inner ones before those around them. -/
def repetitions : Rule → List Rule
  | nothing | phrase _ | terminal _ => []
  | both a b | either a b => a.repetitions ++ b.repetitions
  | repeated r => r.repetitions ++ [r]
  | reported _ r | anyWord r => r.repetitions

end Rule

/-- The terminals that are found by looking at more than the characters of one token. They have the
last numbers of all terminals. -/
def contextual : List Terminal :=
  [.statementEnd, .templateText, .conditionMark, .markComment, .markupText]

/-- The rules in the order of the rank of their phrases. -/
def rankedRules : Rules := grammar.mergeSort fun a b => a.1.ctorIdx ≤ b.1.ctorIdx

/-- The forms of all phrases in the order of their rank. -/
def rankedForms : List Form := rankedRules.flatMap (·.2)

/-- Keeps the first of equal elements. -/
def distinct {α : Type} [BEq α] [Hashable α] (xs : List α) : Array α :=
  let step (seen : Std.HashMap α Unit × Array α) (x : α) : Std.HashMap α Unit × Array α :=
    if seen.1.contains x then seen else (seen.1.insert x (), seen.2.push x)
  (xs.foldl step ({}, #[])).2

/-- The terminals of the grammar in the order of their rank. -/
def terminalTable : Array Terminal :=
  let plain := (rankedForms.flatMap (·.rule.terminals)).filter fun t => !contextual.contains t
  distinct ([.ending, .name] ++ plain ++ [.comment] ++ contextual)

/-- The number of terminals. -/
def terminalCount : Nat := terminalTable.size

/-- The numbers of the terminals. -/
def terminalNumbers : Std.HashMap Terminal Symbol :=
  (terminalTable.toList.zipIdx).foldl (fun m (t, i) => m.insert t i) {}

/-- What the grammar repeats, equal repetitions once. -/
def repetitionTable : List Rule := (rankedForms.flatMap (·.rule.repetitions)).eraseDups

/-- The number of a terminal. -/
def Terminal.symbol (t : Terminal) : Symbol := terminalNumbers.getD t 0

/-- The number of a phrase. -/
def Phrase.symbol (p : Phrase) : Symbol := terminalCount + p.ctorIdx

/-- The number of a repetition. -/
def repetitionSymbol (r : Rule) : Symbol :=
  terminalCount + rankedRules.length + repetitionTable.idxOf r

/-- The number of the goal. -/
def goal : Symbol := terminalCount + rankedRules.length + repetitionTable.length

/-! ## Productions -/

/-- One part of a production. -/
structure Step where
  symbol : Symbol
  /-- What the part is reported as if it is a token and the grammar says so. -/
  kind : Option TokenKind
  /-- Whether every word is a name here. -/
  anyWord : Bool
  deriving DecidableEq, Repr, Inhabited, Hashable

/-- The sequences of parts that a rule allows. -/
def Rule.alternatives (kind : Option TokenKind) (freely : Bool) : Rule → List (List Step)
  | nothing => [[]]
  | terminal t => [[⟨t.symbol, kind, freely⟩]]
  | phrase p => [[⟨p.symbol, kind, freely⟩]]
  | both a b =>
    let rest := b.alternatives kind freely
    (a.alternatives kind freely).flatMap fun first => rest.map (first ++ ·)
  | either a b => a.alternatives kind freely ++ b.alternatives kind freely
  | repeated r => [[⟨repetitionSymbol r, kind, freely⟩]]
  | reported k r => r.alternatives (some k) freely
  | anyWord r => r.alternatives kind true

/-- One way to make up a phrase or a repetition. -/
structure Production where
  /-- What is made up. -/
  result : Symbol
  steps : Array Step
  level : Option Level
  side : Option Side
  weight : Int
  deriving DecidableEq, Repr, Inhabited

/-- The productions of a form. -/
def Form.productions (result : Symbol) (form : Form) : List Production :=
  (form.rule.alternatives none false).map fun steps =>
    ⟨result, steps.toArray, form.level, form.side, form.weight⟩

/-- The productions of a phrase. -/
def phraseProductions (p : Phrase) (forms : List Form) : List Production :=
  (forms.flatMap (Form.productions p.symbol)).eraseDups

/-- The productions of a repetition. -/
def repetitionProductions (r : Rule) : List Production :=
  let self := repetitionSymbol r
  let two : List Step := [⟨self, none, false⟩, ⟨self, none, false⟩]
  (two :: r.alternatives none false).map fun steps =>
    { result := self, steps := steps.toArray, level := none, side := none, weight := 0 }

/-- The production of the goal. -/
def goalProduction : Production :=
  { result := goal, steps := #[⟨Phrase.script.symbol, none, false⟩]
    level := none, side := none, weight := 0 }

/-- All productions, the one of the goal last. -/
def productions : Array Production :=
  let ofPhrases := rankedRules.flatMap fun (p, forms) => phraseProductions p forms
  (ofPhrases ++ repetitionTable.flatMap repetitionProductions).toArray.push goalProduction

/-- The phrases in the order of their rank. -/
def phraseTable : Array Phrase := (rankedRules.map (·.1)).toArray

/-- The phrase that a symbol is the number of. -/
def phraseOf? (s : Symbol) : Option Phrase :=
  if s < terminalCount then none else phraseTable[s - terminalCount]?

/-- Whether a symbol is the number of a terminal. -/
def isTerminal (s : Symbol) : Bool := s < terminalCount

/-- Whether a symbol is the number of a repetition. -/
def isRepetition (s : Symbol) : Bool := terminalCount + rankedRules.length ≤ s && s < goal

/-- Whether a production only renames its single part. -/
def Production.isRenaming (p : Production) : Bool :=
  p.steps.size == 1 && p.steps.all (·.kind.isNone) && p.weight == 0 &&
    (isRepetition p.result || (phraseOf? p.result).any Phrase.isTransparent)

end MessageCatalog.Script
