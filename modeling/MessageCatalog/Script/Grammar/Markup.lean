import MessageCatalog.Script.Grammar.Expression

/-!
# MessageCatalog.Script.Grammar.Markup -- embedded markup

Markup stands in a script as an expression. Its tags hold names, strings and expressions in braces;
between them stands text, which is a token unless it is only the margin of a line.
-/

namespace MessageCatalog.Script

open Rule Fragment

/-- A name in markup. -/
def markupName : Rule := oneOf [Terminal.hyphenated, Terminal.name]

/-- The name of a tag. -/
def tagName : Rule := oneOf [markupName, Phrase.nestedName, Phrase.qualifiedName]

/-- The attributes of a tag. -/
def attributes : Rule := any (oneOf [Phrase.attribute, Phrase.embedded])

/-- Embedded markup. -/
def markupRules : Rules :=
  [(.element,
      [inOrder [Phrase.openingTag,
        any (oneOf [Terminal.markupText, Terminal.reference, element, Phrase.embedded]),
        Phrase.closingTag]]),
    (.embedded,
      [inOrder ["\x7b", optional (oneOf [Phrase.expression, Phrase.sequence, Phrase.spread]),
        "\x7d"]]),
    (.openingTag,
      [{ rule := inOrder ["<", optional (both tagName attributes), ">"], weight := -1 }]),
    (.nestedName,
      [{ rule := inOrder [oneOf [Terminal.name, Phrase.nestedName], ".", Terminal.name]
         level := some .member }]),
    (.qualifiedName, [inOrder [markupName, ":", markupName]]),
    (.closingTag, [inOrder ["</", optional tagName, ">"]]),
    (.emptyTag, [inOrder ["<", tagName, attributes, "/>"]]),
    (.attribute,
      [both (oneOf [markupName, Phrase.qualifiedName])
        (optional (both "=" (oneOf [Phrase.attributeString, Phrase.embedded, element])))]),
    (.attributeString,
      [oneOf [quoted .double (.attributeText .double) .reference,
        quoted .single (.attributeText .single) .reference]])]

end MessageCatalog.Script
