import MessageCatalog.Text.Character

/-!
# MessageCatalog.Text.Quoted -- a text shown in quotes

The display form of a text that a report quotes. Single quotes enclose it unless it holds a single
quote and no double quote. The enclosing quote and the backslash are escaped, three control
characters have letters, and every other character that cannot be printed is written by its code
point.
-/

namespace MessageCatalog.Text

/-- The quote that encloses a text. -/
def enclosingQuote (text : List Char) : Char :=
  if text.contains '\'' && !text.contains '"' then '"' else '\''

/-- One character inside the quotes. -/
def quotedChar (quote c : Char) : List Char :=
  if c == quote || c == '\\' then ['\\', c]
  else if c == '\n' then ['\\', 'n']
  else if c == '\r' then ['\\', 'r']
  else if c == '\t' then ['\\', 't']
  else if isPrintable c then [c]
  else if c.toNat < 0x100 then '\\' :: 'x' :: hexNumeral 2 c.toNat
  else if c.toNat < 0x10000 then '\\' :: 'u' :: hexNumeral 4 c.toNat
  else '\\' :: 'U' :: hexNumeral 8 c.toNat

/-- A text in quotes. -/
def quoted (text : List Char) : List Char :=
  let quote := enclosingQuote text
  quote :: text.flatMap (quotedChar quote) ++ [quote]

end MessageCatalog.Text
