import MessageCatalog.Markup.Element
import MessageCatalog.Markup.Minify
import MessageCatalog.Markup.Tokenizer

/-!
# MessageCatalog.Markup.Tree -- events to a tree

Any page becomes a tree. A start tag opens an element inside the innermost open one, an end tag
closes the innermost open element of its name with everything inside it, and an end tag that fits
nothing is ignored. Elements that are open at the end are closed there.
-/

namespace MessageCatalog.Markup

open MessageCatalog.Text

/-! ## Nodes -/

/-- The start tag of an element: its name, its attributes without repetition and its offset. -/
structure Tag where
  name : String
  attributes : List (String × List Char)
  offset : Nat
  deriving DecidableEq, Repr

/-- A node of the tree. -/
inductive Node where
  | text (chars : List Char)
  | characterData (chars : List Char)
  | comment (chars : List Char)
  | declaration (chars : List Char)
  | documentType (chars : List Char)
  | instruction (chars : List Char)
  | element (tag : Tag) (children : List Node)
  deriving Repr, Inhabited

/-! ## Attributes -/

/-- Sets an attribute: in its place when it is there already, else at the end. -/
def setAttribute : List (String × List Char) → String → List Char →
    List (String × List Char)
  | [], name, value => [(name, value)]
  | (n, v) :: rest, name, value =>
    if n == name then (n, value) :: rest else (n, v) :: setAttribute rest name value

/-- The value of an attribute of an element. A list of words is written with single spaces. -/
def attributeValue (element name : String) (value : List Char) : List Char :=
  if listAttributes.contains name || (listAttributesOf element).contains name then
    joinWith [' '] (words isBlank value)
  else value

/-- The attributes of an element: the last value of each name at the place of its first, a missing
value being empty. -/
def attributesOf (element : String) (attributes : List Attribute) : List (String × List Char) :=
  (attributes.foldl (fun found a => setAttribute found a.name (a.value.getD [])) []).map
    fun (name, value) => (name, attributeValue element name value)

/-! ## Building -/

/-- An element that is open, with its children so far, the last one first. -/
structure OpenNode where
  tag : Tag
  children : List Node
  deriving Repr

/-- A tree under construction. -/
structure Builder where
  /-- The open elements, innermost first. -/
  opened : List OpenNode
  /-- The finished nodes outside every open element, the last one first. -/
  roots : List Node
  /-- The text that has been read since the last tag, comment or declaration. -/
  pending : List Char
  /-- The names of elements without content whose end tag may still follow. -/
  finished : List String
  deriving Repr

/-- Nothing built yet. -/
def Builder.empty : Builder := ⟨[], [], [], []⟩

/-- Adds a node at the current place. -/
def Builder.add (b : Builder) (node : Node) : Builder :=
  match b.opened with
  | [] => { b with roots := node :: b.roots }
  | inner :: outer =>
    { b with opened := { inner with children := node :: inner.children } :: outer }

/-- Text as the tree keeps it: blank text shrinks to a line feed or a space, except inside an
element that keeps it. -/
def Builder.shrink (b : Builder) (text : List Char) : List Char :=
  if b.opened.any fun e => blankKeepingElements.contains e.tag.name then text
  else if text.all isMarkupSpace then (if text.contains '\n' then ['\n'] else [' '])
  else text

/-- Turns the pending text into a node. -/
def Builder.flush (b : Builder) : Builder :=
  if b.pending.isEmpty then b
  else { b.add (.text (b.shrink b.pending)) with pending := [] }

/-- Adds a node that is not an element, made from the text that it holds. -/
def Builder.addLeaf (b : Builder) (make : List Char → Node) (text : List Char) : Builder :=
  let flushed := b.flush
  flushed.add (make (flushed.shrink text))

/-- Adds text. -/
def Builder.addText (b : Builder) (text : List Char) : Builder :=
  { b with pending := b.pending ++ text }

/-- Opens an element. -/
def Builder.openTag (b : Builder) (tag : Tag) : Builder :=
  let flushed := b.flush
  { flushed with opened := ⟨tag, []⟩ :: flushed.opened }

/-- The node of an element that is closed now. -/
def OpenNode.close (e : OpenNode) : Node := .element e.tag e.children.reverse

/-- Closes the innermost open element. -/
def Builder.closeInnermost (b : Builder) : Builder :=
  match b.opened with
  | [] => b
  | inner :: outer => { b with opened := outer }.add inner.close

/-- Closes as many open elements as there are in a list. -/
def Builder.closeMany (b : Builder) : List OpenNode → Builder
  | [] => b
  | _ :: rest => b.closeInnermost.closeMany rest

/-- Closes the innermost open element of a name with everything inside it, if there is one. -/
def Builder.closeTag (b : Builder) (name : String) : Builder :=
  let flushed := b.flush
  if flushed.opened.any fun e => e.tag.name == name then
    (flushed.closeMany (flushed.opened.takeWhile fun e => e.tag.name != name)).closeInnermost
  else flushed

/-- Reads an end tag. The end tag of an element without content has no effect when the element was
closed by its start tag. -/
def Builder.endTag (b : Builder) (name : String) : Builder :=
  if b.finished.contains name then { b with finished := b.finished.erase name }
  else b.closeTag name

/-- Whether a marked section holds character data. -/
def characterData? (text : List Char) : Option (List Char) :=
  if (text.take 6).map Char.toUpper == "CDATA[".toList then some (text.drop 6) else none

/-- Reads one event. -/
def Builder.read (b : Builder) (located : Located) : Builder :=
  match located.event with
  | .startTag name attributes selfClosing =>
    let opened := b.openTag ⟨name, attributesOf name attributes, located.offset⟩
    if selfClosing then opened.endTag name
    else if emptyElements.contains name then
      let closed := opened.closeTag name
      { closed with finished := closed.finished ++ [name] }
    else opened
  | .endTag name => b.endTag name
  | .data text => b.addText text
  | .named name => b.addText (namedText name)
  | .numeric digits => b.addText (numericText digits)
  | .comment text => b.addLeaf .comment text
  | .declaration text => b.addLeaf .documentType (text.drop 8)
  | .marked text =>
    match characterData? text with
    | some data => b.addLeaf .characterData data
    | none => b.addLeaf .declaration text
  | .instruction text => b.addLeaf .instruction text

/-- The finished tree. -/
def Builder.finish (b : Builder) : List Node :=
  let flushed := b.flush
  (flushed.closeMany flushed.opened).roots.reverse

/-- The tree of some events. -/
def treeOf (events : List Located) : List Node :=
  (events.foldl Builder.read Builder.empty).finish

/-- The tree of a page, or why the page is rejected. -/
def parse (markup : List Char) : Except MarkupError (List Node) :=
  let page := tokenize markup
  match page.rejection with
  | some (_, why) => .error ⟨.rejectedDocument why, none⟩
  | none => .ok (treeOf page.events)

/-! ## Walking -/

mutual
/-- The text of a node: text and character data outside elements whose text is hidden. -/
def Node.textContent : Node → List Char
  | .text chars => chars
  | .characterData chars => chars
  | .element tag children =>
    if hiddenTextElements.contains tag.name then dataContents children else textContents children
  | _ => []

/-- The text of some nodes. -/
def textContents : List Node → List Char
  | [] => []
  | node :: rest => node.textContent ++ textContents rest

/-- The character data of a node whose text is hidden. -/
def Node.dataContent : Node → List Char
  | .characterData chars => chars
  | .element _ children => dataContents children
  | _ => []

/-- The character data of some nodes whose text is hidden. -/
def dataContents : List Node → List Char
  | [] => []
  | node :: rest => node.dataContent ++ dataContents rest
end

/-- An element of the tree. -/
structure Element where
  tag : Tag
  children : List Node
  deriving Repr

mutual
/-- The elements of a node, in the order of their start tags. -/
def Node.elements : Node → List Element
  | .element tag children => ⟨tag, children⟩ :: allElements children
  | _ => []

/-- The elements of some nodes, in the order of their start tags. -/
def allElements : List Node → List Element
  | [] => []
  | node :: rest => node.elements ++ allElements rest
end

/-- The value of an attribute. -/
def Tag.attribute? (tag : Tag) (name : String) : Option (List Char) := tag.attributes.lookup name

end MessageCatalog.Markup
