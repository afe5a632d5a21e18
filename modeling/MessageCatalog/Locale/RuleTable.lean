import MessageCatalog.Locale.Name

/-!
# MessageCatalog.Locale.RuleTable -- the plural rules of some languages

One definition per set of rules, as the common locale data repository gives them. Conditions are
listed by the names of their categories, which is the order in which a script tries them. The data
that the rules make up knows some languages and some of their territories; nothing that is proved of
operations depends on which.
-/

namespace MessageCatalog.Locale

open MessageCatalog.Text

/-- The rules of English. -/
def english : PluralRules where
  cardinal := [
    (.one, .both (.within .whole [(1, 1)]) (.within .decimals [(0, 0)]))]
  ordinal := [
    (.few, .both (.within (.remainder .number 10) [(3, 3)]) (.negated (.within (.remainder
      .number 100) [(13, 13)]))),
    (.one, .both (.within (.remainder .number 10) [(1, 1)]) (.negated (.within (.remainder
      .number 100) [(11, 11)]))),
    (.two, .both (.within (.remainder .number 10) [(2, 2)]) (.negated (.within (.remainder
      .number 100) [(12, 12)])))]

/-- The rules of Arabic. -/
def arabic : PluralRules where
  cardinal := [
    (.few, .within (.remainder .number 100) [(3, 10)]),
    (.many, .within (.remainder .number 100) [(11, 99)]),
    (.one, .within .number [(1, 1)]),
    (.two, .within .number [(2, 2)]),
    (.zero, .within .number [(0, 0)])]
  ordinal := []

/-- The rules of Breton. -/
def breton : PluralRules where
  cardinal := [
    (.few, .both (.within (.remainder .number 10) [(3, 4), (9, 9)]) (.negated (.within
      (.remainder .number 100) [(10, 19), (70, 79), (90, 99)]))),
    (.many, .both (.negated (.within .number [(0, 0)])) (.within (.remainder .number 1000000)
      [(0, 0)])),
    (.one, .both (.within (.remainder .number 10) [(1, 1)]) (.negated (.within (.remainder
      .number 100) [(11, 11), (71, 71), (91, 91)]))),
    (.two, .both (.within (.remainder .number 10) [(2, 2)]) (.negated (.within (.remainder
      .number 100) [(12, 12), (72, 72), (92, 92)])))]
  ordinal := []

/-- The rules of Czech. -/
def czech : PluralRules where
  cardinal := [
    (.few, .both (.within .whole [(2, 4)]) (.within .decimals [(0, 0)])),
    (.many, .negated (.within .decimals [(0, 0)])),
    (.one, .both (.within .whole [(1, 1)]) (.within .decimals [(0, 0)]))]
  ordinal := []

/-- The rules of Welsh. -/
def welsh : PluralRules where
  cardinal := [
    (.few, .within .number [(3, 3)]),
    (.many, .within .number [(6, 6)]),
    (.one, .within .number [(1, 1)]),
    (.two, .within .number [(2, 2)]),
    (.zero, .within .number [(0, 0)])]
  ordinal := [
    (.few, .within .number [(3, 3), (4, 4)]),
    (.many, .within .number [(5, 5), (6, 6)]),
    (.one, .within .number [(1, 1)]),
    (.two, .within .number [(2, 2)]),
    (.zero, .within .number [(0, 0), (7, 7), (8, 8), (9, 9)])]

/-- The rules of Danish. -/
def danish : PluralRules where
  cardinal := [
    (.one, .either (.within .number [(1, 1)]) (.both (.negated (.within .decimals [(0, 0)]))
      (.within .whole [(0, 0), (1, 1)])))]
  ordinal := []

/-- The rules of German. -/
def german : PluralRules where
  cardinal := [
    (.one, .both (.within .whole [(1, 1)]) (.within .decimals [(0, 0)]))]
  ordinal := []

/-- The rules of Spanish. -/
def spanish : PluralRules where
  cardinal := [
    (.many, .either (.both (.both (.both (.within .exponent [(0, 0)]) (.negated (.within .whole
      [(0, 0)]))) (.within (.remainder .whole 1000000) [(0, 0)])) (.within .decimals [(0, 0)]))
      (.negated (.within .exponent [(0, 5)]))),
    (.one, .within .number [(1, 1)])]
  ordinal := []

/-- The rules of Filipino. -/
def filipino : PluralRules where
  cardinal := [
    (.one, .either (.either (.both (.within .decimals [(0, 0)]) (.within .whole [(1, 1), (2, 2),
      (3, 3)])) (.both (.within .decimals [(0, 0)]) (.negated (.within (.remainder .whole 10)
      [(4, 4), (6, 6), (9, 9)])))) (.both (.negated (.within .decimals [(0, 0)])) (.negated
      (.within (.remainder .decimals 10) [(4, 4), (6, 6), (9, 9)]))))]
  ordinal := [
    (.one, .within .number [(1, 1)])]

/-- The rules of French. -/
def french : PluralRules where
  cardinal := [
    (.many, .either (.both (.both (.both (.within .exponent [(0, 0)]) (.negated (.within .whole
      [(0, 0)]))) (.within (.remainder .whole 1000000) [(0, 0)])) (.within .decimals [(0, 0)]))
      (.negated (.within .exponent [(0, 5)]))),
    (.one, .within .whole [(0, 0), (1, 1)])]
  ordinal := [
    (.one, .within .number [(1, 1)])]

/-- The rules of Irish. -/
def irish : PluralRules where
  cardinal := [
    (.few, .within .number [(3, 6)]),
    (.many, .within .number [(7, 10)]),
    (.one, .within .number [(1, 1)]),
    (.two, .within .number [(2, 2)])]
  ordinal := [
    (.one, .within .number [(1, 1)])]

/-- The rules of Hebrew. -/
def hebrew : PluralRules where
  cardinal := [
    (.one, .either (.both (.within .whole [(1, 1)]) (.within .decimals [(0, 0)])) (.both (.within
      .whole [(0, 0)]) (.negated (.within .decimals [(0, 0)])))),
    (.two, .both (.within .whole [(2, 2)]) (.within .decimals [(0, 0)]))]
  ordinal := []

/-- The rules of Hindi. -/
def hindi : PluralRules where
  cardinal := [
    (.one, .either (.within .whole [(0, 0)]) (.within .number [(1, 1)]))]
  ordinal := [
    (.few, .within .number [(4, 4)]),
    (.many, .within .number [(6, 6)]),
    (.one, .within .number [(1, 1)]),
    (.two, .within .number [(2, 2), (3, 3)])]

/-- The rules of Icelandic. -/
def icelandic : PluralRules where
  cardinal := [
    (.one, .either (.both (.both (.within .decimals [(0, 0)]) (.within (.remainder .whole 10)
      [(1, 1)])) (.negated (.within (.remainder .whole 100) [(11, 11)]))) (.both (.within
      (.remainder .decimals 10) [(1, 1)]) (.negated (.within (.remainder .decimals 100) [(11,
      11)]))))]
  ordinal := []

/-- The rules of Italian. -/
def italian : PluralRules where
  cardinal := [
    (.many, .either (.both (.both (.both (.within .exponent [(0, 0)]) (.negated (.within .whole
      [(0, 0)]))) (.within (.remainder .whole 1000000) [(0, 0)])) (.within .decimals [(0, 0)]))
      (.negated (.within .exponent [(0, 5)]))),
    (.one, .both (.within .whole [(1, 1)]) (.within .decimals [(0, 0)]))]
  ordinal := [
    (.many, .within .number [(11, 11), (8, 8), (80, 80), (800, 800)])]

/-- The rules of languages that do not tell numbers apart. -/
def uninflected : PluralRules where
  cardinal := []
  ordinal := []

/-- The rules of Lithuanian. -/
def lithuanian : PluralRules where
  cardinal := [
    (.few, .both (.within (.remainder .number 10) [(2, 9)]) (.negated (.within (.remainder
      .number 100) [(11, 19)]))),
    (.many, .negated (.within .decimals [(0, 0)])),
    (.one, .both (.within (.remainder .number 10) [(1, 1)]) (.negated (.within (.remainder
      .number 100) [(11, 19)])))]
  ordinal := []

/-- The rules of Latvian. -/
def latvian : PluralRules where
  cardinal := [
    (.one, .either (.either (.both (.within (.remainder .number 10) [(1, 1)]) (.negated (.within
      (.remainder .number 100) [(11, 11)]))) (.both (.both (.within .decimals [(2, 2)]) (.within
      (.remainder .decimals 10) [(1, 1)])) (.negated (.within (.remainder .decimals 100) [(11,
      11)])))) (.both (.negated (.within .decimals [(2, 2)])) (.within (.remainder .decimals 10)
      [(1, 1)]))),
    (.zero, .either (.either (.within (.remainder .number 10) [(0, 0)]) (.within (.remainder
      .number 100) [(11, 19)])) (.both (.within .decimals [(2, 2)]) (.within (.remainder
      .decimals 100) [(11, 19)])))]
  ordinal := []

/-- The rules of Macedonian. -/
def macedonian : PluralRules where
  cardinal := [
    (.one, .either (.both (.both (.within .decimals [(0, 0)]) (.within (.remainder .whole 10)
      [(1, 1)])) (.negated (.within (.remainder .whole 100) [(11, 11)]))) (.both (.within
      (.remainder .decimals 10) [(1, 1)]) (.negated (.within (.remainder .decimals 100) [(11,
      11)]))))]
  ordinal := [
    (.many, .both (.within (.remainder .whole 10) [(7, 7), (8, 8)]) (.negated (.within
      (.remainder .whole 100) [(17, 17), (18, 18)]))),
    (.one, .both (.within (.remainder .whole 10) [(1, 1)]) (.negated (.within (.remainder .whole
      100) [(11, 11)]))),
    (.two, .both (.within (.remainder .whole 10) [(2, 2)]) (.negated (.within (.remainder .whole
      100) [(12, 12)])))]

/-- The rules of Maltese. -/
def maltese : PluralRules where
  cardinal := [
    (.few, .either (.within .number [(0, 0)]) (.within (.remainder .number 100) [(3, 10)])),
    (.many, .within (.remainder .number 100) [(11, 19)]),
    (.one, .within .number [(1, 1)]),
    (.two, .within .number [(2, 2)])]
  ordinal := []

/-- The rules of Polish. -/
def polish : PluralRules where
  cardinal := [
    (.few, .both (.both (.within .decimals [(0, 0)]) (.within (.remainder .whole 10) [(2, 4)]))
      (.negated (.within (.remainder .whole 100) [(12, 14)]))),
    (.many, .either (.either (.both (.both (.within .decimals [(0, 0)]) (.negated (.within .whole
      [(1, 1)]))) (.within (.remainder .whole 10) [(0, 1)])) (.both (.within .decimals [(0, 0)])
      (.within (.remainder .whole 10) [(5, 9)]))) (.both (.within .decimals [(0, 0)]) (.within
      (.remainder .whole 100) [(12, 14)]))),
    (.one, .both (.within .whole [(1, 1)]) (.within .decimals [(0, 0)]))]
  ordinal := []

/-- The rules of Portuguese. -/
def portuguese : PluralRules where
  cardinal := [
    (.many, .either (.both (.both (.both (.within .exponent [(0, 0)]) (.negated (.within .whole
      [(0, 0)]))) (.within (.remainder .whole 1000000) [(0, 0)])) (.within .decimals [(0, 0)]))
      (.negated (.within .exponent [(0, 5)]))),
    (.one, .within .whole [(0, 1)])]
  ordinal := []

/-- The rules of Portuguese as written in Portugal. -/
def europeanPortuguese : PluralRules where
  cardinal := [
    (.many, .either (.both (.both (.both (.within .exponent [(0, 0)]) (.negated (.within .whole
      [(0, 0)]))) (.within (.remainder .whole 1000000) [(0, 0)])) (.within .decimals [(0, 0)]))
      (.negated (.within .exponent [(0, 5)]))),
    (.one, .both (.within .whole [(1, 1)]) (.within .decimals [(0, 0)]))]
  ordinal := []

/-- The rules of Romanian. -/
def romanian : PluralRules where
  cardinal := [
    (.few, .either (.either (.negated (.within .decimals [(0, 0)])) (.within .number [(0, 0)]))
      (.both (.negated (.within .number [(1, 1)])) (.within (.remainder .number 100) [(1, 19)]))),
    (.one, .both (.within .whole [(1, 1)]) (.within .decimals [(0, 0)]))]
  ordinal := [
    (.one, .within .number [(1, 1)])]

/-- The rules of Russian. -/
def russian : PluralRules where
  cardinal := [
    (.few, .both (.both (.within .decimals [(0, 0)]) (.within (.remainder .whole 10) [(2, 4)]))
      (.negated (.within (.remainder .whole 100) [(12, 14)]))),
    (.many, .either (.either (.both (.within .decimals [(0, 0)]) (.within (.remainder .whole 10)
      [(0, 0)])) (.both (.within .decimals [(0, 0)]) (.within (.remainder .whole 10) [(5, 9)])))
      (.both (.within .decimals [(0, 0)]) (.within (.remainder .whole 100) [(11, 14)]))),
    (.one, .both (.both (.within .decimals [(0, 0)]) (.within (.remainder .whole 10) [(1, 1)]))
      (.negated (.within (.remainder .whole 100) [(11, 11)])))]
  ordinal := []

/-- The rules of Slovenian. -/
def slovenian : PluralRules where
  cardinal := [
    (.few, .either (.both (.within .decimals [(0, 0)]) (.within (.remainder .whole 100) [(3,
      4)])) (.negated (.within .decimals [(0, 0)]))),
    (.one, .both (.within .decimals [(0, 0)]) (.within (.remainder .whole 100) [(1, 1)])),
    (.two, .both (.within .decimals [(0, 0)]) (.within (.remainder .whole 100) [(2, 2)]))]
  ordinal := []

/-- The rules of Swedish. -/
def swedish : PluralRules where
  cardinal := [
    (.one, .both (.within .whole [(1, 1)]) (.within .decimals [(0, 0)]))]
  ordinal := [
    (.one, .both (.within (.remainder .number 10) [(1, 1), (2, 2)]) (.negated (.within
      (.remainder .number 100) [(11, 11), (12, 12)])))]

/-- The rules of Ukrainian. -/
def ukrainian : PluralRules where
  cardinal := [
    (.few, .both (.both (.within .decimals [(0, 0)]) (.within (.remainder .whole 10) [(2, 4)]))
      (.negated (.within (.remainder .whole 100) [(12, 14)]))),
    (.many, .either (.either (.both (.within .decimals [(0, 0)]) (.within (.remainder .whole 10)
      [(0, 0)])) (.both (.within .decimals [(0, 0)]) (.within (.remainder .whole 10) [(5, 9)])))
      (.both (.within .decimals [(0, 0)]) (.within (.remainder .whole 100) [(11, 14)]))),
    (.one, .both (.both (.within .decimals [(0, 0)]) (.within (.remainder .whole 10) [(1, 1)]))
      (.negated (.within (.remainder .whole 100) [(11, 11)])))]
  ordinal := [
    (.few, .both (.within (.remainder .number 10) [(3, 3)]) (.negated (.within (.remainder
      .number 100) [(13, 13)])))]

/-! ## Names -/

/-- The parts of a locale's name. -/
structure LocaleName where
  language : String
  script : Option String := none
  territory : Option String := none
  deriving DecidableEq, Repr

/-- The name as text, with underscores between its parts. -/
def LocaleName.toText (name : LocaleName) : String :=
  let part (p : Option String) : String := (p.map fun s => "_" ++ s).getD ""
  name.language ++ part name.script ++ part name.territory

/-- A capital letter followed by small letters. -/
def capitalized (part : List Char) : List Char :=
  match part with
  | [] => []
  | c :: rest => c.toUpper :: lowercase rest

/-- Whether a part is the code of a territory: two letters or three digits. -/
def isTerritory (part : List Char) : Bool :=
  (part.length == 2 && part.all isAsciiLetter) || (part.length == 3 && part.all isAsciiDigit)

/-- Whether a part is the code of a script: four letters. -/
def isScript (part : List Char) : Bool := part.length == 4 && part.all isAsciiLetter

/-- Reads a normalized code. A code with parts that are neither a script nor a territory, or that
are out of place, is no name. -/
def LocaleName.ofCode? (code : String) : Option LocaleName :=
  match splitOnChar (· == '_') code.toList with
  | [] => none
  | language :: others =>
    if language.isEmpty || !language.all isAsciiLetter then none
    else
      let (script, others) := match others with
        | part :: rest => if isScript part then (some part, rest) else (none, others)
        | [] => (none, [])
      let (territory, others) := match others with
        | part :: rest => if isTerritory part then (some part, rest) else (none, others)
        | [] => (none, [])
      if others.isEmpty then
        some {
          language := String.ofList (lowercase language)
          script := script.map fun s => String.ofList (capitalized s)
          territory := territory.map fun t => String.ofList (t.map Char.toUpper) }
      else none

/-! ## The data -/

/-- The rules of the languages. -/
def languageRules : List (String × PluralRules) :=
  [("ar", arabic), ("br", breton), ("cs", czech), ("cy", welsh), ("da", danish), ("de", german),
    ("en", english), ("es", spanish), ("fil", filipino), ("fr", french), ("ga", irish),
    ("he", hebrew), ("hi", hindi), ("is", icelandic), ("it", italian), ("ja", uninflected),
    ("ko", uninflected), ("lt", lithuanian), ("lv", latvian), ("mk", macedonian),
    ("mt", maltese), ("pl", polish), ("pt", portuguese), ("ro", romanian),
    ("ru", russian), ("sl", slovenian), ("sv", swedish), ("uk", ukrainian),
    ("zh", uninflected)]

/-- The locales of a territory that are known. -/
def knownTerritories : List LocaleName :=
  [⟨"ar", none, some "EG"⟩, ⟨"de", none, some "AT"⟩, ⟨"de", none, some "DE"⟩,
    ⟨"en", none, some "US"⟩, ⟨"fr", none, some "CA"⟩, ⟨"fr", none, some "FR"⟩,
    ⟨"pt", none, some "BR"⟩, ⟨"pt", none, some "PT"⟩, ⟨"ru", none, some "RU"⟩,
    ⟨"zh", some "Hans", some "CN"⟩, ⟨"zh", some "Hant", some "TW"⟩]

/-- The rules of a locale: of its own if it has any, else of its language. -/
def rulesOf? (name : LocaleName) : Option PluralRules :=
  if name == ⟨"pt", none, some "PT"⟩ then some europeanPortuguese
  else languageRules.lookup name.language

/-- The known locale that a name stands for. A territory decides the script that is left out. -/
def LocaleName.resolve? (name : LocaleName) : Option LocaleName :=
  match name.territory with
  | none =>
    if name.script.isNone && (languageRules.lookup name.language).isSome then some name else none
  | some _ =>
    knownTerritories.find? fun known =>
      known.language == name.language && known.territory == name.territory &&
        (name.script.isNone || name.script == known.script)

/-- Some languages, and some of their territories. -/
def common : Data := fun code => do
  let name ← (← LocaleName.ofCode? code).resolve?
  return ⟨name.toText, ← rulesOf? name⟩

end MessageCatalog.Locale
