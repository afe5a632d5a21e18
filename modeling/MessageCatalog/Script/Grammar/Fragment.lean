import MessageCatalog.Script.Rule

/-!
# MessageCatalog.Script.Grammar.Fragment -- what many forms of the grammar share

These are choices that the grammar makes in several places. Unlike a phrase, such a choice leaves no
trace of its own in the reading of a script.
-/

namespace MessageCatalog.Script.Fragment

open Rule

/-- The end of a statement. -/
def semicolon : Rule := oneOf [Terminal.statementEnd, ";"]

/-- The words that are keywords in some places and names in others. -/
def nameWord : Rule := oneOf ["get", "set", "async", "await", "static", "export", "let"]

/-- A name that is reported as being of some kind, also if it is a word that has a meaning
elsewhere. -/
def named (kind : TokenKind) : Rule :=
  reported kind (oneOf [Terminal.name, nameWord])

/-- A variable. -/
def variable' : Rule := oneOf ["undefined", Terminal.name]

/-- A variable whose name has a meaning elsewhere. -/
def wordVariable : Rule := reported .identifier nameWord

/-- One expression or several with commas between. -/
def expressions : Rule := oneOf [Phrase.expression, Phrase.sequence]

/-- What a value can be assigned to. -/
def left : Rule :=
  oneOf [Phrase.member, Phrase.subscript, variable', wordVariable, Phrase.destructuring]

/-- A variable or a pattern, as declarations have it. -/
def binding : Rule := oneOf [Terminal.name, Phrase.destructuring]

/-- A parameter of a function. -/
def parameter : Rule := oneOf [Phrase.pattern, Phrase.assignmentPattern]

/-- An element of embedded markup. -/
def element : Rule := oneOf [Phrase.element, Phrase.emptyTag]

/-- A value in a list of values. -/
def item : Rule := oneOf [Phrase.expression, Phrase.spread]

end MessageCatalog.Script.Fragment
