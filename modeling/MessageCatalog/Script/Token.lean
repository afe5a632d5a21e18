import MessageCatalog.Text.Cursor

/-!
# MessageCatalog.Script.Token -- the tokens of a script

A token is a piece of the source with a kind and a position. Names, quoted strings, keywords and
punctuation are told apart, and so are the literals and the words that stand for a value. Comments
and blanks are no tokens. A string or a regular expression is one token, while a template is the
sequence of its parts.
-/

namespace MessageCatalog.Script

open MessageCatalog.Text

/-- What a token is. -/
inductive TokenKind where
  /-- A variable, a property, or a property that an object takes from the variable of its name. -/
  | identifier
  | string
  | keyword
  | punctuator
  | number
  | regex
  /-- Text of a template. -/
  | fragment
  /-- An escape in the text of a template. -/
  | escape
  | optionalChain
  | thisValue
  | superValue
  | nullValue
  | trueValue
  | falseValue
  | undefinedValue
  /-- A variable that a destructuring pattern takes from the property of its name. -/
  | shorthandPattern
  | label
  | privateName
  | hashBang
  /-- Text between the tags of embedded markup. -/
  | markupText
  /-- A character reference in the text of embedded markup. -/
  | markupReference
  deriving DecidableEq, Repr, Inhabited, Hashable

/-- The name under which a kind is reported. -/
def TokenKind.name : TokenKind → String
  | .identifier => "Identifier"
  | .string => "String"
  | .keyword => "Keyword"
  | .punctuator => "Punctuator"
  | .number => "number"
  | .regex => "regex"
  | .fragment => "string_fragment"
  | .escape => "escape_sequence"
  | .optionalChain => "optional_chain"
  | .thisValue => "this"
  | .superValue => "super"
  | .nullValue => "null"
  | .trueValue => "true"
  | .falseValue => "false"
  | .undefinedValue => "undefined"
  | .shorthandPattern => "shorthand_property_identifier_pattern"
  | .label => "statement_identifier"
  | .privateName => "private_property_identifier"
  | .hashBang => "hash_bang_line"
  | .markupText => "jsx_text"
  | .markupReference => "html_character_reference"

/-- A token: its kind, its source text and where it starts. -/
structure Token where
  kind : TokenKind
  text : String
  position : Position
  deriving DecidableEq, Repr, Inhabited

/-- Tokens in the order of the source. -/
abbrev Tokens := List Token

end MessageCatalog.Script
