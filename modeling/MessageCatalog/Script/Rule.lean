import MessageCatalog.Script.Terminal

/-!
# MessageCatalog.Script.Rule -- how the grammar is written down

The grammar gives every phrase a list of forms. A form says what the phrase is made of, and how it
stands against other forms where both could go on: its level, the side to which it groups with its
equals, and a weight that settles what nothing else does.

The phrases are listed in the order of their rank. Of two readings of one text that weigh the same,
the one with the phrase of lower rank is taken.
-/

namespace MessageCatalog.Script

/-- A phrase of the grammar. -/
inductive Phrase where
  | script
  | exportStatement
  | namespaceExport
  | exportClause
  | exportSpecifier
  | moduleName
  | declaration
  | importWord
  | importStatement
  | importClause
  | fromClause
  | namespaceImport
  | namedImports
  | importSpecifier
  | importAttribute
  | statement
  | expressionStatement
  | variableDeclaration
  | lexicalDeclaration
  | usingDeclaration
  | declarator
  | block
  | elseClause
  | ifStatement
  | switchStatement
  | forStatement
  | forInStatement
  | forHeader
  | whileStatement
  | doStatement
  | tryStatement
  | withStatement
  | breakStatement
  | continueStatement
  | debuggerStatement
  | returnStatement
  | throwStatement
  | emptyStatement
  | labeledStatement
  | switchBody
  | switchCase
  | switchDefault
  | catchClause
  | finallyClause
  | parenthesized
  | expression
  | primary
  | yieldExpression
  | object
  | objectPattern
  | assignmentPattern
  | objectAssignmentPattern
  | array
  | arrayPattern
  | element
  | embedded
  | openingTag
  | nestedName
  | qualifiedName
  | closingTag
  | emptyTag
  | attribute
  | attributeString
  | classExpression
  | classDeclaration
  | classHeritage
  | functionExpression
  | functionDeclaration
  | generatorExpression
  | generatorDeclaration
  | arrowFunction
  | call
  | newExpression
  | awaitExpression
  | member
  | subscript
  | assignment
  | augmentedLeft
  | augmentedAssignment
  | initializer
  | destructuring
  | spread
  | ternary
  | binary
  | unary
  | update
  | sequence
  | string
  | template
  | substitution
  | regex
  | metaProperty
  | arguments
  | decorator
  | decoratorMember
  | decoratorCall
  | classBody
  | field
  | parameters
  | staticBlock
  | pattern
  | restPattern
  | method
  | pair
  | pairPattern
  | propertyName
  | computedName
  deriving DecidableEq, Repr, Inhabited, Hashable

namespace Phrase

/-- Phrases that only name a choice. Where one is made of a single part, the part stands for it. -/
def isTransparent : Phrase → Bool
  | moduleName | fromClause | forHeader | attributeString | augmentedLeft | initializer
  | destructuring | propertyName => true
  | _ => false

/-- Phrases that are a single token of some kind although they have parts. -/
def tokenKind? : Phrase → Option TokenKind
  | string | attributeString => some .string
  | regex => some .regex
  | _ => none

end Phrase

/-- What a form is made of. -/
inductive Rule where
  | nothing
  | terminal (t : Terminal)
  | phrase (p : Phrase)
  | both (first second : Rule)
  | either (first second : Rule)
  /-- One or more of the same. -/
  | repeated (r : Rule)
  /-- Tokens that are reported as being of some kind. -/
  | reported (kind : TokenKind) (r : Rule)
  /-- A place where every word is a name. -/
  | anyWord (r : Rule)
  deriving DecidableEq, Repr, Inhabited

instance : Coe String Rule := ⟨fun text => .terminal (.exact text)⟩

instance : Coe Phrase Rule := ⟨.phrase⟩

instance : Coe Terminal Rule := ⟨.terminal⟩

namespace Rule

/-- Several parts in order. -/
def inOrder : List Rule → Rule
  | [] => .nothing
  | [r] => r
  | r :: rs => .both r (inOrder rs)

/-- One of several alternatives. -/
def oneOf : List Rule → Rule
  | [] => .nothing
  | [r] => r
  | r :: rs => .either r (oneOf rs)

/-- A part that may be missing. -/
def optional (r : Rule) : Rule := .either r .nothing

/-- Any number of the same, also none. -/
def any (r : Rule) : Rule := optional (.repeated r)

/-- One or more of the same with commas between. -/
def list (r : Rule) : Rule := .both r (any (.both "," r))

/-- Any number of the same with commas between. -/
def anyList (r : Rule) : Rule := optional (list r)

end Rule

/-- How strongly the parts of a form hold together. -/
inductive Level where
  | member
  | templateCall
  | call
  | unary
  | power
  | product
  | sum
  | shift
  | relation
  | equality
  | bitAnd
  | bitXor
  | bitOr
  | logicalAnd
  | logicalOr
  | ternary
  | assign
  | new
  | declare
  | literal
  | object
  deriving DecidableEq, Repr, Inhabited, Hashable

/-- The side to which forms of one level group. -/
inductive Side where
  | left
  | right
  deriving DecidableEq, Repr, Inhabited, Hashable

/-- One way to make up a phrase. -/
structure Form where
  rule : Rule
  level : Option Level := none
  side : Option Side := none
  /-- Of two readings of a text the one of greater weight is taken. -/
  weight : Int := 0
  deriving DecidableEq, Repr, Inhabited

instance : Coe Rule Form := ⟨fun rule => { rule := rule }⟩

/-- The forms of some phrases. -/
abbrev Rules := List (Phrase × List Form)

end MessageCatalog.Script
