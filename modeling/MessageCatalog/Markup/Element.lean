/-!
# MessageCatalog.Markup.Element -- what is known about the elements of a page

The elements without content, the elements that stand inside a line of text, the elements whose end
tag may be left out, the elements whose white space counts, and what the sanitizer allows.
-/

namespace MessageCatalog.Markup

/-! ## Shape -/

/-- Elements without content and end tag, as the minifier knows them. -/
def voidElements : List String :=
  ["area", "base", "br", "col", "embed", "hr", "img", "input", "link", "meta", "param", "source",
    "track", "wbr"]

/-- Elements without content and end tag, as the tree knows them: the list of the standard and the
elements of older pages. -/
def emptyElements : List String :=
  ["area", "base", "br", "col", "embed", "hr", "img", "input", "keygen", "link", "menuitem",
    "meta", "param", "source", "track", "wbr", "basefont", "bgsound", "command", "frame", "image",
    "isindex", "nextid", "spacer"]

/-- Elements that stand inside a line: white space next to them counts. -/
def inlineElements : List String :=
  ["a", "abbr", "acronym", "b", "bdi", "bdo", "big", "button", "cite", "code", "del", "dfn", "em",
    "font", "i", "img", "input", "ins", "kbd", "label", "mark", "math", "nobr", "object", "q", "rp",
    "rt", "rtc", "ruby", "s", "samp", "select", "small", "span", "strike", "strong", "sub", "sup",
    "svg", "textarea", "time", "tt", "u", "var"]

/-- Elements whose end tag may be left out. -/
def optionalEndElements : List String :=
  ["colgroup", "dd", "dt", "li", "optgroup", "option", "p", "rb", "rp", "rt", "rtc", "tbody", "td",
    "tfoot", "th", "thead", "tr"]

/-- Elements whose white space the minifier keeps. -/
def preservedElements : List String := ["pre", "textarea", "script", "style"]

/-- Elements whose blank text the tree keeps. -/
def blankKeepingElements : List String := ["pre", "textarea"]

/-- Elements whose text is not part of the text of a page. -/
def hiddenTextElements : List String := ["script", "style", "template", "rt", "rp"]

/-- Elements whose text is written without escapes. -/
def unescapedElements : List String := ["script", "style"]

/-! ## Policy -/

/-- Elements that survive sanitizing. -/
def allowedElements : List String :=
  ["a", "abbr", "acronym", "address", "b", "bdi", "bdo", "big", "blockquote", "br", "caption",
    "center", "cite", "code", "col", "colgroup", "dd", "del", "dfn", "div", "dl", "dt", "em",
    "figcaption", "figure", "font", "h1", "h2", "h3", "h4", "h5", "h6", "hr", "i", "img", "ins",
    "kbd", "label", "li", "mark", "ol", "p", "pre", "q", "s", "samp", "small", "span", "strike",
    "strong", "sub", "sup", "table", "tbody", "td", "tfoot", "th", "thead", "time", "tr", "tt",
    "u", "ul", "var", "wbr"]

/-- Elements that are removed together with everything inside them. -/
def droppedElements : List String :=
  ["applet", "embed", "frame", "frameset", "iframe", "link", "meta", "noembed", "noframes",
    "noscript", "object", "script", "style", "template", "title"]

/-- Attributes that survive sanitizing. -/
def allowedAttributes : List String :=
  ["abbr", "align", "alt", "axis", "bgcolor", "border", "cellpadding", "cellspacing", "char",
    "charoff", "cite", "clear", "color", "cols", "colspan", "compact", "coords", "datetime",
    "dir", "disabled", "face", "headers", "height", "href", "hreflang", "hspace", "lang",
    "noshade", "nowrap", "rel", "rev", "rows", "rowspan", "rules", "scope", "shape", "size",
    "span", "src", "start", "summary", "target", "title", "type", "valign", "value", "vspace",
    "width"]

/-- Attributes whose value is a link and has to pass the link rule. -/
def linkAttributes : List String := ["href", "src", "cite", "longdesc", "usemap", "background"]

/-! ## Lists in attributes -/

/-- Attributes that hold a list of words on every element. -/
def listAttributes : List String := ["class", "accesskey", "dropzone"]

/-- Attributes that hold a list of words on one element. -/
def listAttributesOf (element : String) : List String :=
  match element with
  | "a" => ["rel", "rev"]
  | "link" => ["rel", "rev"]
  | "td" => ["headers"]
  | "th" => ["headers"]
  | "form" => ["accept-charset"]
  | "object" => ["archive"]
  | "area" => ["rel"]
  | "icon" => ["sizes"]
  | "iframe" => ["sandbox"]
  | "output" => ["for"]
  | _ => []

end MessageCatalog.Markup
