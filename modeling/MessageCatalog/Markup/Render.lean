import MessageCatalog.Markup.Tree

/-!
# MessageCatalog.Markup.Render -- trees to markup

Text is written with `&`, `<` and `>` as references and with nothing else escaped. Attributes are
written in the order of their names. A value stands in double quotes, or in single quotes when it
holds a double quote and no single one.
-/

namespace MessageCatalog.Markup

open MessageCatalog.Text

/-- One character of text. -/
def escapeTextChar (c : Char) : List Char :=
  if c == '&' then "&amp;".toList
  else if c == '<' then "&lt;".toList
  else if c == '>' then "&gt;".toList
  else [c]

/-- Text with references in place of the characters of markup. -/
def escapeText (text : List Char) : List Char := text.flatMap escapeTextChar

/-- An attribute value in its quotes. -/
def quoteValue (value : List Char) : List Char :=
  let escaped := escapeText value
  if escaped.contains '"' then
    if escaped.contains '\'' then
      '"' :: escaped.flatMap (fun c => if c == '"' then "&quot;".toList else [c]) ++ ['"']
    else '\'' :: escaped ++ ['\'']
  else '"' :: escaped ++ ['"']

/-- Whether a name comes before another one. -/
def nameBefore (a b : String × List Char) : Bool := a.1 < b.1 || a.1 == b.1

/-- The start tag of an element. -/
def Tag.render (tag : Tag) : List Char :=
  '<' :: tag.name.toList ++
    (tag.attributes.mergeSort nameBefore).flatMap (fun (name, value) =>
      ' ' :: name.toList ++ ['='] ++ quoteValue value) ++ ['>']

mutual
/-- A node as markup; `escaped` says whether text needs references where the node stands. -/
def Node.render (escaped : Bool) : Node → List Char
  | .text chars => if escaped then escapeText chars else chars
  | .characterData chars => "<![CDATA[".toList ++ chars ++ "]]>".toList
  | .comment chars => "<!--".toList ++ chars ++ "-->".toList
  | .declaration chars => "<?".toList ++ chars ++ "?>".toList
  | .documentType chars => "<!DOCTYPE ".toList ++ chars ++ ">\n".toList
  | .instruction chars => "<?".toList ++ chars ++ ">".toList
  | .element tag [] =>
    if emptyElements.contains tag.name then tag.render
    else tag.render ++ ('<' :: '/' :: tag.name.toList ++ ['>'])
  | .element tag (child :: children) =>
    let inside := !unescapedElements.contains tag.name
    tag.render ++ (child.render inside ++ renderNodes inside children) ++
      ('<' :: '/' :: tag.name.toList ++ ['>'])

/-- Nodes as markup. -/
def renderNodes (escaped : Bool) : List Node → List Char
  | [] => []
  | node :: rest => node.render escaped ++ renderNodes escaped rest
end

/-- A tree as markup. -/
def render (nodes : List Node) : List Char := renderNodes true nodes

/-- The content of an element as markup. -/
def Element.renderContent (e : Element) : List Char :=
  renderNodes (!unescapedElements.contains e.tag.name) e.children

end MessageCatalog.Markup
