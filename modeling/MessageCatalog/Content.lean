import MessageCatalog.Config.Options
import MessageCatalog.Markup.Sanitize
import MessageCatalog.Script.Literal

/-!
# MessageCatalog.Content -- the form in which messages reach a page

The markup of a message is made smaller and then reduced to what may reach a page. Keys stay as they
are unless they are to be made smaller too. A text that holds no markup of its own is kept as its
author wrote it.
-/

namespace MessageCatalog.Content

open MessageCatalog.Config MessageCatalog.Markup

/-- A key and its content in their final form. -/
structure Cleaned where
  key : List Char
  content : List Char
  deriving DecidableEq, Repr

/-- Markup made smaller, or as it is when nothing would be left. -/
def shrink (minifier : Option MinifyOptions) (markup : List Char) :
    Except MarkupError (List Char) :=
  match minifier with
  | none => .ok markup
  | some options => (minify options markup).map fun small => if small.isEmpty then markup else small

/-- The minifier of keys: none unless contents are made smaller too. -/
def keyMinifier (options : Options) : Option MinifyOptions :=
  if options.contentMinifier.isSome then options.keyMinifier else none

/-- Cleans a key and its content. The key can be escaped for a quoted text of a script. -/
def clean (options : Options) (key content : List Char) (escapeKey : Bool) :
    Except MarkupError Cleaned := do
  let key ← shrink (keyMinifier options) key
  let key := if escapeKey then Script.escape key else key
  let content ← shrink options.contentMinifier content
  return ⟨key, ← sanitizeMarkup options.allowsLink content⟩

/-- Cleaned content, or the text that it was cleaned from when its markup reads as just that
text. -/
def keepPlain (value content : List Char) : Except MarkupError (List Char) :=
  (textContent content).map fun text => if text == value then value else content

end MessageCatalog.Content
