import MessageCatalog.Locale.Name
import MessageCatalog.Message.Compile
import MessageCatalog.Message.Parser
import MessageCatalog.Text.Quoted

/-!
# MessageCatalog.Message.Engine -- the messages of a locale

An engine knows the plural categories of its locale. It parses messages against them, compiles
messages, and writes the script that registers the plural rules of the locale under its code.
-/

namespace MessageCatalog.Message

open MessageCatalog.Locale MessageCatalog.Text

/-- The message engine of a locale. -/
structure Engine where
  /-- The code of the locale with underscores; scripts register it under this name. -/
  locale : String
  /-- The name of the known locale whose rules it uses. -/
  resolved : String
  rules : PluralRules
  deriving DecidableEq, Repr

namespace Engine

/-- The engine of a locale, if there are rules for the locale or its language. -/
def forLocale (data : Locale.Data) (code : String) : Except UnknownLocale Engine :=
  let normalized := normalize code
  match data.find? normalized with
  | some known => .ok ⟨normalized, known.name, known.rules⟩
  | none => .error ⟨normalized⟩

/-- The language part of the locale. -/
def language (e : Engine) : String := languageOf e.locale

/-- The names of the categories of amounts. -/
def pluralCategories (e : Engine) : List String := e.rules.cardinal.categories.map Category.name

/-- The names of the categories of places in an order. -/
def ordinalCategories (e : Engine) : List String := e.rules.ordinal.categories.map Category.name

/-- What messages of the locale are parsed against. -/
def context (e : Engine) : Context :=
  .ofCategories e.pluralCategories e.ordinalCategories defaultMaxDepth

/-- Parses a message. -/
def parse (e : Engine) (text : List Char) : Except ParseError Message :=
  Message.parse e.context text

/-- Parses a message and compiles it. -/
def compile (e : Engine) (text : List Char) : Except ParseError (List Char) :=
  (e.parse text).map (Message.compile e.locale)

/-- The script that registers the plural rules of the locale: a function of a number and a flag that
asks for its place in an order. -/
def rulesScript (e : Engine) : String :=
  "MessageFormat.locale[" ++ String.ofList (textLiteral e.locale) ++
    "]=function(n,ord)\x7bif(ord)\x7breturn " ++ e.rules.ordinal.script ++
    "(n);\x7dreturn " ++ e.rules.cardinal.script ++ "(n);\x7d;"

/-- The report that an engine is in use. -/
def describe (e : Engine) : String :=
  s!"MessageFormat for {e.locale} uses CLDR rules of {e.resolved} (plural: " ++
    String.intercalate " " e.pluralCategories ++ "; ordinal: " ++
    String.intercalate " " e.ordinalCategories ++ ")"

/-- The display form of an engine. -/
def display (e : Engine) : String :=
  "MessageFormat(" ++ String.ofList (Text.quoted e.locale.toList) ++ ")"

end Engine

end MessageCatalog.Message
