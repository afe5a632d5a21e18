import MessageCatalog.Script.Lexeme
import MessageCatalog.Script.Token

/-!
# MessageCatalog.Script.Terminal -- the smallest parts of the grammar

A terminal is a part of a script that the grammar does not divide: a word, a mark of punctuation, a
name, a piece of a string. It is found by its characters alone, given that the grammar asks for it.
Some terminals stand only where the one before them ends, with no white space between.
-/

namespace MessageCatalog.Script

open MessageCatalog.Text

/-- The quotes that a string can stand in. -/
inductive Quote where
  | double
  | single
  deriving DecidableEq, Repr, Inhabited, Hashable

/-- The character on both sides of a string. -/
def Quote.mark : Quote → Char
  | double => '"'
  | single => '\''

/-- A smallest part of the grammar. -/
inductive Terminal where
  /-- The end of the script. -/
  | ending
  | name
  /-- A keyword or a mark of punctuation. -/
  | exact (text : String)
  | hashBang
  | number
  | privateName
  /-- Plain text of a string with the given quotes. -/
  | fragment (quote : Quote)
  | escape
  | regexBody
  | regexEnd
  | regexFlags
  /-- A name of a tag or an attribute that has a hyphen in it. -/
  | hyphenated
  | reference
  /-- Plain text in the string of an attribute with the given quotes. -/
  | attributeText (quote : Quote)
  /-- The words of a static method that a line end cuts off from its name. -/
  | staticGetter
  | comment
  /-- The end of a statement that has no semicolon. -/
  | statementEnd
  | templateText
  /-- The mark behind the condition of a conditional expression. -/
  | conditionMark
  /-- A comment that starts like a comment of markup. -/
  | markComment
  | markupText
  deriving DecidableEq, Repr, Inhabited, Hashable

namespace Terminal

/-- Whether a terminal is made of the characters of a name. -/
def isWordText (text : String) : Bool := nameLength text.toList == text.length

/-- Whether a terminal is a keyword. -/
def isWord : Terminal → Bool
  | exact text => isWordText text
  | _ => false

/-- Whether a terminal is a comment, which may stand between any two others. -/
def isComment : Terminal → Bool
  | comment | markComment => true
  | _ => false

/-- What a terminal is reported as where the grammar gives it no other kind. -/
def kind : Terminal → TokenKind
  | name | hyphenated => .identifier
  | exact "this" => .thisValue
  | exact "super" => .superValue
  | exact "null" => .nullValue
  | exact "true" => .trueValue
  | exact "false" => .falseValue
  | exact "undefined" => .undefinedValue
  | exact "?." => .optionalChain
  | exact text => if isWordText text then .keyword else .punctuator
  | hashBang => .hashBang
  | number => .number
  | privateName => .privateName
  | fragment _ | attributeText _ | templateText => .fragment
  | escape => .escape
  | reference => .markupReference
  | markupText => .markupText
  | _ => .punctuator

/-- Whether a terminal has to follow the one before it without white space. -/
def isImmediate : Terminal → Bool
  | fragment _ | attributeText _ | escape | regexBody | regexEnd | regexFlags => true
  | _ => false

/-- Of several terminals that start at one place, those of the highest preference are candidates,
whatever their length. -/
def preference : Terminal → Nat
  | fragment _ | attributeText _ | regexEnd => 2
  | regexBody => 0
  | _ => 1

/-- The number of characters of a terminal at the start of a text, zero if there is none. Words and
the terminals that depend on more than their own characters are found elsewhere. -/
def lengthAt (text : List Char) : Terminal → Nat
  | exact s => if startsWith s.toList text then s.length else 0
  | hashBang => hashBangLength text
  | number => numberLength text
  | privateName => privateNameLength text
  | fragment quote => fragmentLength quote.mark text
  | escape => escapeLength text
  | regexBody => regexBodyLength text
  | regexEnd => if text.head? == some '/' then 1 else 0
  | regexFlags => regexFlagsLength text
  | hyphenated => hyphenatedLength text
  | reference => referenceLength text
  | attributeText quote => attributeTextLength quote.mark text
  | staticGetter => staticGetterLength text
  | comment => commentLength text
  | _ => 0

end Terminal

end MessageCatalog.Script
