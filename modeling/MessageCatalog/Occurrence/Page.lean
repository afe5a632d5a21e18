import MessageCatalog.Content
import MessageCatalog.Markup.Tree
import MessageCatalog.Occurrence.Basic
import MessageCatalog.Occurrence.Inner
import MessageCatalog.Report.Problem

/-!
# MessageCatalog.Occurrence.Page -- messages that a page holds

An element is marked by an attribute of its own or by the data attribute of that name. A value of
the attribute is the message itself. Without one, and for the first of the attributes only, the
content of the element is: as it is written for the key, and cleaned for the text.
-/

namespace MessageCatalog.Occurrence

open MessageCatalog.Config MessageCatalog.Markup MessageCatalog.Report MessageCatalog.Text

/-- The data attribute that means the same as an attribute. -/
def dataName (mark : String) : String := "data-" ++ mark

/-- Whether an element is marked by an attribute. -/
def isMarked (tag : Tag) (mark : String) : Bool :=
  (tag.attribute? mark).isSome || (tag.attribute? (dataName mark)).isSome

/-- The value of a marking attribute, empty when there is none. -/
def markValue (tag : Tag) (mark : String) : List Char :=
  let value := (tag.attribute? mark).getD []
  if value.isEmpty then (tag.attribute? (dataName mark)).getD [] else value

/-- A fault inside the content of an element as a fault of the page: its line is counted from the
line of the element. -/
def shiftedProblem (start : Position) (e : MarkupError) : Problem :=
  .at .markup e.message (e.position.map fun p => ⟨start.line + p.line - 1, p.column⟩)

/-- What an element says by its content. -/
def contentFindings (options : Options) (path : String) (page : List Char) (element : Element) :
    Findings :=
  let tag := element.tag
  let source := (innerSource page tag.name.toList tag.offset).getD element.renderContent
  match Content.clean options source source false with
  | .ok cleaned => if cleaned.content.isEmpty then .none else .one path cleaned.key cleaned.content
  | .error e =>
    let problem := shiftedProblem (.at page tag.offset) e
    .say (problem.warning (String.ofList source) none (some path))

/-- What an element says by one of the attributes, the first of which marks content too. -/
def attributeFindings (options : Options) (path : String) (page : List Char) (element : Element)
    (mark : String) : Findings :=
  let value := markValue element.tag mark
  if !value.isEmpty then .one path value value
  else if options.attributes.head? == some mark && isMarked element.tag mark then
    contentFindings options path page element
  else .none

/-- The messages of a page. -/
def ofPage (options : Options) (path : String) (page : List Char) :
    Except MarkupError Findings := do
  let elements := (allElements (← parse page)).filter fun e =>
    options.attributes.any (isMarked e.tag)
  let counted : Line := ⟨.debug, s!"Found {elements.length} localized elements in {path}"⟩
  return Findings.say counted ++ Findings.concat (elements.flatMap fun e =>
    options.attributes.map (attributeFindings options path page e))

end MessageCatalog.Occurrence
