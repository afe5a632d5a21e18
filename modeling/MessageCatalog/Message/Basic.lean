/-!
# MessageCatalog.Message.Basic -- messages

A message is text with places to be filled in: the value of an argument, a value in some format, a
choice between messages by a word or by the plural category of a number, and inside such a plural
choice the number itself.
-/

namespace MessageCatalog

namespace Message

/-- One element of a message. A choice lists the messages of its cases under their keys. -/
inductive Element where
  /-- Literal text, all quoting resolved. -/
  | text (value : String)
  | argument (name : String)
  /-- The number of the innermost plural choice, less its offset. -/
  | number
  | format (name kind : String) (style : Option String)
  | select (name : String) (cases : List (String × List Element))
  | plural (name : String) (offset : Int) (ordinal : Bool) (cases : List (String × List Element))
  deriving Repr, Inhabited

end Message

/-- A message. -/
abbrev Message := List Message.Element

/-- The cases of a choice. -/
abbrev Message.Cases := List (String × Message)

end MessageCatalog
