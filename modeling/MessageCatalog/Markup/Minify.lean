import MessageCatalog.Markup.Element
import MessageCatalog.Markup.Tokenizer
import MessageCatalog.Text.Cursor

/-!
# MessageCatalog.Markup.Minify -- smaller pages that mean the same

The minifier drops comments, collapses white space and trims it where no text stands next to it. It
never decides how text is escaped: references pass through as they are. On the way it checks that
elements nest: an end tag closes the nearest open element of its name, and every element that it
closes on the way may leave out its end tag.
-/

namespace MessageCatalog.Markup

open MessageCatalog.Text

/-! ## Faults -/

/-- Why a fragment is malformed. -/
inductive MarkupCause where
  | unexpectedEndTag (name : String)
  | mismatchedEndTag (name expected : String)
  | unclosedElement (name : String)
  | unparsable (why : Rejection)
  | rejectedDocument (why : Rejection)
  deriving DecidableEq, Repr

/-- The wording of a cause. -/
def MarkupCause.message : MarkupCause → String
  | .unexpectedEndTag name => s!"Unexpected end tag </{name}>"
  | .mismatchedEndTag name expected => s!"Mismatched end tag </{name}>, expected </{expected}>"
  | .unclosedElement name => s!"Unclosed element <{name}>"
  | .unparsable why => s!"Unparsable markup: {why.message}"
  | .rejectedDocument why =>
    "Unparsable markup: The markup you provided was rejected by the parser. " ++
      "Trying a different parser or a different encoding may help.\n\n" ++
      "Original exception(s) from parser:\n AssertionError: " ++ why.message

/-- Malformed markup, and where it is wrong if that is known. -/
structure MarkupError where
  cause : MarkupCause
  position : Option Position
  deriving DecidableEq, Repr

/-- The wording of an error. -/
def MarkupError.message (e : MarkupError) : String := e.cause.message

/-! ## Options -/

/-- Which minifications to apply. -/
structure MinifyOptions where
  removeComments : Bool := true
  collapseWhitespace : Bool := true
  deriving DecidableEq, Repr, Inhabited

/-! ## Nesting -/

/-- An element that is open, and the offset of its start tag. -/
structure OpenElement where
  name : String
  offset : Nat
  deriving DecidableEq, Repr

/-- Closes elements from the innermost one outward until one of the name is closed. -/
def closeTo (name : String) : List OpenElement → Except MarkupCause (List OpenElement)
  | [] => .error (.unexpectedEndTag name)
  | e :: outer =>
    if e.name == name then .ok outer
    else if optionalEndElements.contains e.name then closeTo name outer
    else .error (.mismatchedEndTag name e.name)

/-- Closes the nearest open element of a name. -/
def closeElement (name : String) (open' : List OpenElement) :
    Except MarkupCause (List OpenElement) :=
  if open'.any fun e => e.name == name then closeTo name open'
  else .error (.unexpectedEndTag name)

/-- The open elements after an event. -/
def nest (open' : List OpenElement) (located : Located) : Except MarkupCause (List OpenElement) :=
  match located.event with
  | .startTag name _ false =>
    if voidElements.contains name then .ok open' else .ok (⟨name, located.offset⟩ :: open')
  | .endTag name => if voidElements.contains name then .ok open' else closeElement name open'
  | _ => .ok open'

/-- The open elements after some events, or the offset of the event that does not fit and why. -/
def nestAll (open' : List OpenElement) :
    List Located → Except (Nat × MarkupCause) (List OpenElement)
  | [] => .ok open'
  | located :: rest =>
    match nest open' located with
    | .ok inner => nestAll inner rest
    | .error cause => .error (located.offset, cause)

/-- The outermost open element that needs an end tag. -/
def unclosed? (open' : List OpenElement) : Option OpenElement :=
  open'.reverse.find? fun e => !optionalEndElements.contains e.name

/-- Whether white space counts inside the open elements. -/
def preserves (open' : List OpenElement) : Bool :=
  open'.any fun e => preservedElements.contains e.name

/-! ## Pieces -/

/-- A piece of minified output. -/
inductive Piece where
  /-- Text; `kept` when its white space counts. -/
  | text (chars : List Char) (kept : Bool)
  /-- A tag as it is written, with the name of its element. -/
  | tag (chars : List Char) (name : String)
  /-- A comment, a declaration or an instruction. -/
  | other (chars : List Char)
  deriving DecidableEq, Repr

/-- The characters of a piece. -/
def Piece.chars : Piece → List Char
  | .text chars _ => chars
  | .tag chars _ => chars
  | .other chars => chars

/-- The white space that collapses and is trimmed. Spaces of other kinds are text. -/
def isMarkupSpace (c : Char) : Bool :=
  c == ' ' || c == '\t' || c == '\n' || c == '\r' || c == '\x0c'

/-- Replaces every run of white space by one space. `inRun` says whether the run has been
written. -/
def collapseFrom : (inRun : Bool) → List Char → List Char
  | _, [] => []
  | inRun, c :: rest =>
    if isMarkupSpace c then
      if inRun then collapseFrom true rest else ' ' :: collapseFrom true rest
    else c :: collapseFrom false rest

/-- Replaces every run of white space by one space. -/
def collapse (text : List Char) : List Char := collapseFrom false text

/-- An attribute value inside double quotes. -/
def escapeValue (value : List Char) : List Char :=
  value.flatMap fun c =>
    if c == '&' then "&amp;".toList else if c == '"' then "&quot;".toList else [c]

/-- An attribute behind a space. -/
def Attribute.write (a : Attribute) : List Char :=
  match a.value with
  | none => ' ' :: a.name.toList
  | some value => ' ' :: a.name.toList ++ ['=', '"'] ++ escapeValue value ++ ['"']

/-- A start tag. A self-closing tag keeps its slash unless its element is void. -/
def writeStartTag (name : String) (attributes : List Attribute) (selfClosing : Bool) : List Char :=
  let ending := if selfClosing && !voidElements.contains name then ['/', '>'] else ['>']
  '<' :: name.toList ++ attributes.flatMap Attribute.write ++ ending

/-- The piece that an event becomes; `kept` says whether white space counts where it stands. -/
def pieceOf (options : MinifyOptions) (kept : Bool) : Event → Option Piece
  | .startTag name attributes selfClosing =>
    some (.tag (writeStartTag name attributes selfClosing) name)
  | .endTag name =>
    if voidElements.contains name then none
    else some (.tag ('<' :: '/' :: name.toList ++ ['>']) name)
  | .data text =>
    some (.text (if options.collapseWhitespace && !kept then collapse text else text) kept)
  | .named name => some (.text ('&' :: name ++ [';']) kept)
  | .numeric digits => some (.text ('&' :: '#' :: digits ++ [';']) kept)
  | .comment text =>
    if options.removeComments then none
    else some (.other ("<!--".toList ++ text ++ "-->".toList))
  | .declaration text => some (.other ('<' :: '!' :: text ++ ['>']))
  | .marked text => some (.other ("<![".toList ++ text ++ "]>".toList))
  | .instruction text => some (.other ('<' :: '?' :: text ++ ['>']))

/-- The pieces of events that nest, given the elements that are open before them. -/
def piecesOf (options : MinifyOptions) (open' : List OpenElement) : List Located → List Piece
  | [] => []
  | located :: rest =>
    let others := piecesOf options ((nest open' located).toOption.getD open') rest
    match pieceOf options (preserves open') located.event with
    | some piece => piece :: others
    | none => others

/-- Puts a piece in front of others. Texts that agree in whether white space counts become one. -/
def joinPiece (piece : Piece) (pieces : List Piece) : List Piece :=
  match piece, pieces with
  | .text a keptA, .text b keptB :: rest =>
    if keptA == keptB then .text (a ++ b) keptA :: rest else piece :: pieces
  | _, _ => piece :: pieces

/-- Joins neighbouring texts. -/
def joinTexts (pieces : List Piece) : List Piece := pieces.foldr joinPiece []

/-! ## Trimming -/

/-- Whether text next to a neighbour is trimmed: at the ends of the fragment and next to a tag of an
element that does not stand inside a line. -/
def isEdge : Option Piece → Bool
  | none => true
  | some (.tag _ name) => !inlineElements.contains name
  | some _ => false

/-- A text without the white space at its trimmed ends. -/
def trimText (previous next : Option Piece) (text : List Char) : List Char :=
  let started := if isEdge previous then text.dropWhile isMarkupSpace else text
  if isEdge next then trimEnd isMarkupSpace started else started

/-- Trims the texts of a list of pieces; neighbours are taken from the list as it was. -/
def trimPieces (previous : Option Piece) : List Piece → List Piece
  | [] => []
  | piece :: rest =>
    match piece with
    | .text chars false =>
      let trimmed := trimText previous rest.head? chars
      if trimmed.isEmpty then trimPieces (some piece) rest
      else .text trimmed false :: trimPieces (some piece) rest
    | _ => piece :: trimPieces (some piece) rest

/-! ## Fragments -/

/-- The check of a whole page: every end tag fits, the page was not rejected, and no element is left
open that needs its end tag. Of several faults the first in the text is reported. -/
def checkPage (page : Page) : Except (Nat × MarkupCause) Unit :=
  match nestAll [] page.events with
  | .error fault => .error fault
  | .ok left =>
    match page.rejection with
    | some (offset, why) => .error (offset, .unparsable why)
    | none =>
      match unclosed? left with
      | some e => .error (e.offset, .unclosedElement e.name)
      | none => .ok ()

/-- The pieces that some events become. -/
def minifyEvents (options : MinifyOptions) (events : List Located) : List Piece :=
  let pieces := joinTexts (piecesOf options [] events)
  if options.collapseWhitespace then trimPieces none pieces else pieces

/-- A fragment, minified. -/
def minify (options : MinifyOptions) (markup : List Char) : Except MarkupError (List Char) :=
  let page := tokenize markup
  match checkPage page with
  | .error (offset, cause) => .error ⟨cause, some (Position.at markup offset)⟩
  | .ok () => .ok ((minifyEvents options page.events).flatMap Piece.chars)

end MessageCatalog.Markup
