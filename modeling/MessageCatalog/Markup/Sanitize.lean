import MessageCatalog.Markup.Render

/-!
# MessageCatalog.Markup.Sanitize -- the markup that may reach a page

Formatting and structure survive, behaviour does not. A dropped element goes with its content, an
unknown element goes and its content stays, and an allowed element keeps its allowed attributes.
Links have to pass a rule that the caller gives. Comments, declarations and instructions are
removed.
-/

namespace MessageCatalog.Markup

open MessageCatalog.Text

/-- Whether an attribute survives. -/
def keepsAttribute (allowLink : List Char → Bool) (name : String) (value : List Char) : Bool :=
  let small := nameOf name.toList
  allowedAttributes.contains small && (!linkAttributes.contains small || allowLink value)

/-- A start tag with the attributes that survive. -/
def Tag.clean (allowLink : List Char → Bool) (tag : Tag) : Tag :=
  { tag with
    attributes := tag.attributes.filter fun (name, value) => keepsAttribute allowLink name value }

mutual
/-- What survives of a node. -/
def Node.sanitize (allowLink : List Char → Bool) : Node → List Node
  | .text chars => [.text chars]
  | .characterData chars => [.characterData chars]
  | .comment _ => []
  | .declaration _ => []
  | .documentType _ => []
  | .instruction _ => []
  | .element tag children =>
    let small := nameOf tag.name.toList
    if droppedElements.contains small then []
    else if allowedElements.contains small then
      [.element (tag.clean allowLink) (sanitizeNodes allowLink children)]
    else sanitizeNodes allowLink children

/-- What survives of some nodes. -/
def sanitizeNodes (allowLink : List Char → Bool) : List Node → List Node
  | [] => []
  | node :: rest => node.sanitize allowLink ++ sanitizeNodes allowLink rest
end

/-- A fragment with only the markup that may reach a page. -/
def sanitizeMarkup (allowLink : List Char → Bool) (markup : List Char) :
    Except MarkupError (List Char) :=
  (parse markup).map fun nodes => render (sanitizeNodes allowLink nodes)

/-- The text of a fragment: of the first paragraph when the fragment is set as one. -/
def textContent (markup : List Char) : Except MarkupError (List Char) :=
  (parse ("<p>".toList ++ markup ++ "</p>".toList)).map fun nodes =>
    match (allElements nodes).find? fun e => e.tag.name == "p" with
    | some paragraph => textContents paragraph.children
    | none => []

end MessageCatalog.Markup
