import MessageCatalog.Locale.Rule
import MessageCatalog.Text.Search

/-!
# MessageCatalog.Locale.Name -- locales and their rules

A locale code is a language, and possibly a script and a territory, with hyphens or underscores
between them. What is known of locales is data that is given; a locale that is not in the data falls
back to its language, and if that is unknown too there are no rules for it.
-/

namespace MessageCatalog.Locale

open MessageCatalog.Text

/-! ## Codes -/

/-- A code with underscores between its parts. -/
def normalize (code : String) : String :=
  String.ofList (replaceAll ['-'] ['_'] code.toList)

/-- The language of a normalized code: everything before its first underscore. -/
def languageOf (code : String) : String := String.ofList (code.toList.takeWhile (· != '_'))

/-! ## Known locales -/

/-- A locale that is known. -/
structure Known where
  /-- Its name, with underscores between the parts. -/
  name : String
  rules : PluralRules
  deriving DecidableEq, Repr

/-- What is known of locales: the locale that a code stands for, if it stands for one. -/
abbrev Data := String → Option Known

/-- A code that neither is a known locale nor has a known language. -/
structure UnknownLocale where
  code : String
  deriving DecidableEq, Repr

/-- The report of an unknown locale. -/
def UnknownLocale.message (e : UnknownLocale) : String :=
  s!"Message format rules for locale {e.code} not found"

/-- The known locale of a code, given the code itself or else its language. -/
def Data.find? (data : Data) (code : String) : Option Known := [code, languageOf code].findSome? data

end MessageCatalog.Locale
