/-!
# MessageCatalog.Markup.Event -- what a page consists of

A page is a sequence of events: tags, text, references, comments and declarations. Texts are kept as
lists of characters exactly as they are written; only attribute values have had their references
resolved, and names of elements and attributes are in small letters.
-/

namespace MessageCatalog.Markup

/-- An attribute of a start tag. An attribute that is only a name has no value. -/
structure Attribute where
  name : String
  value : Option (List Char)
  deriving DecidableEq, Repr

/-- One piece of a page. -/
inductive Event where
  /-- A start tag; `selfClosing` when it ends in a slash. -/
  | startTag (name : String) (attributes : List Attribute) (selfClosing : Bool)
  | endTag (name : String)
  | data (text : List Char)
  /-- A named reference, without its ampersand and semicolon. -/
  | named (name : List Char)
  /-- A numeric reference, without its ampersand, number sign and semicolon. -/
  | numeric (digits : List Char)
  | comment (text : List Char)
  /-- A document type declaration, without its brackets. -/
  | declaration (text : List Char)
  /-- A marked section, from after its opening bracket to its closing one. -/
  | marked (text : List Char)
  | instruction (text : List Char)
  deriving DecidableEq, Repr

/-- An event and the offset of its first character. -/
structure Located where
  offset : Nat
  event : Event
  deriving DecidableEq, Repr

/-- Why a page cannot be read any further. -/
inductive Rejection where
  /-- A marked section without a name; the text from its start is shown. -/
  | missingSectionName (shown : List Char)
  /-- A marked section of an unknown kind. -/
  | unknownSection (name : List Char)
  deriving DecidableEq, Repr

/-- What the tokenizer makes of the text that follows the start of a construct. -/
inductive Mode where
  /-- Markup, text and references. -/
  | markup
  /-- Raw text up to the end tag of an element. -/
  | raw (element : String)
  deriving DecidableEq, Repr, Inhabited

/-- A page as read: its events in order and, if it was rejected, why and at which offset. -/
structure Page where
  events : List Located
  rejection : Option (Nat × Rejection)
  deriving DecidableEq, Repr

end MessageCatalog.Markup
