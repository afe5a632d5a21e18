import MessageCatalog.Script.Grammar.Fragment

/-!
# MessageCatalog.Script.Grammar.Expression -- expressions and the literals among them

An operand is what needs no parentheses wherever an expression may stand. Operators are told apart
by their levels only, since every operand may stand beside any of them.
-/

namespace MessageCatalog.Script

open Rule Fragment

/-- The operators between two operands, with their levels. -/
def infixLevels : List (String × Level) :=
  [("&&", .logicalAnd), ("||", .logicalOr), (">>", .shift), (">>>", .shift), ("<<", .shift),
    ("&", .bitAnd), ("^", .bitXor), ("|", .bitOr), ("+", .sum), ("-", .sum), ("*", .product),
    ("/", .product), ("%", .product), ("**", .power), ("<", .relation), ("<=", .relation),
    ("==", .equality), ("===", .equality), ("!=", .equality), ("!==", .equality),
    (">=", .relation), (">", .relation), ("??", .ternary), ("instanceof", .relation),
    ("in", .relation)]

/-- The form of an operator between two operands. Only a power groups to the right, and only the
test for a property may have a private name before it. -/
def infixForm (sign : String) (level : Level) : Form :=
  let first : Rule :=
    if sign == "in" then oneOf [Phrase.expression, Terminal.privateName] else Phrase.expression
  { rule := inOrder [first, sign, Phrase.expression]
    level := some level
    side := some (if level == .power then .right else .left) }

/-- The assignments that compute with the old value. -/
def augmentedSigns : List Rule :=
  ["+=", "-=", "*=", "/=", "%=", "^=", "&=", "|=", ">>=", ">>>=", "<<=", "**=", "&&=", "||=",
    "??="]

/-- A list of values between brackets, in which values may be left out. -/
def values (opening closing : String) : Rule :=
  inOrder [opening, anyList (optional item), closing]

/-- Expressions. -/
def expressionRules : Rules :=
  [(.expression,
      [oneOf [Phrase.primary, element, Phrase.assignment, Phrase.augmentedAssignment,
        Phrase.awaitExpression, Phrase.unary, Phrase.binary, Phrase.ternary, Phrase.update,
        Phrase.newExpression, Phrase.yieldExpression]]),
    (.primary,
      [oneOf [Phrase.subscript, Phrase.member, Phrase.parenthesized, variable', wordVariable,
        "this", "super", Terminal.number, Phrase.string, Phrase.template, Phrase.regex, "true",
        "false", "null", Phrase.object, Phrase.array, Phrase.functionExpression,
        Phrase.arrowFunction, Phrase.generatorExpression, Phrase.classExpression,
        Phrase.metaProperty, Phrase.call]]),
    (.yieldExpression,
      [{ rule := both "yield"
          (oneOf [both "*" Phrase.expression, optional Phrase.expression])
         side := some .right }]),
    (.array, [values "[" "]"]),
    (.arrowFunction,
      [inOrder [optional "async", oneOf [wordVariable, Terminal.name, Phrase.parameters], "=>",
        oneOf [Phrase.expression, Phrase.block]]]),
    (.call,
      [{ rule := both (oneOf [Phrase.expression, Phrase.importWord]) Phrase.arguments
         level := some .call },
        { rule := both (oneOf [Phrase.primary, Phrase.newExpression]) Phrase.template
          level := some .templateCall },
        { rule := inOrder [Phrase.primary, "?.", Phrase.arguments]
          level := some .member }]),
    (.newExpression,
      [{ rule := inOrder ["new", oneOf [Phrase.primary, Phrase.newExpression], Phrase.arguments]
         level := some .new, side := some .right, weight := 1 },
        { rule := inOrder ["new", oneOf [Phrase.primary, Phrase.newExpression]]
          level := some .new, side := some .right }]),
    (.awaitExpression, [{ rule := both "await" Phrase.expression, level := some .unary }]),
    (.member,
      [{ rule := inOrder [oneOf [Phrase.expression, Phrase.primary, Phrase.importWord],
          oneOf [".", "?."],
          oneOf [Terminal.privateName, anyWord (reported .identifier Terminal.name)]]
         level := some .member }]),
    (.subscript,
      [{ rule := inOrder [oneOf [Phrase.expression, Phrase.primary], optional "?.", "[",
          expressions, "]"]
         level := some .member, side := some .right }]),
    (.assignment,
      [{ rule := inOrder [oneOf [Phrase.parenthesized, left], "=", Phrase.expression]
         level := some .assign, side := some .right }]),
    (.augmentedLeft,
      [oneOf [Phrase.member, Phrase.subscript, wordVariable, Terminal.name,
        Phrase.parenthesized]]),
    (.augmentedAssignment,
      [{ rule := inOrder [Phrase.augmentedLeft, oneOf augmentedSigns, Phrase.expression]
         level := some .assign, side := some .right }]),
    (.initializer, [both "=" Phrase.expression]),
    (.spread, [both "..." Phrase.expression]),
    (.ternary,
      [{ rule := inOrder [Phrase.expression, Terminal.conditionMark, Phrase.expression, ":",
          Phrase.expression]
         level := some .ternary, side := some .right }]),
    (.binary, infixLevels.map fun (sign, level) => infixForm sign level),
    (.unary,
      [{ rule := both (oneOf ["!", "~", "-", "+", "typeof", "void", "delete"]) Phrase.expression
         level := some .unary, side := some .left }]),
    (.update,
      [{ rule := oneOf [both Phrase.expression (oneOf ["++", "--"]),
          both (oneOf ["++", "--"]) Phrase.expression]
         side := some .left }]),
    (.sequence, [{ rule := list Phrase.expression, side := some .right }]),
    (.metaProperty,
      [oneOf [inOrder ["new", ".", "target"], inOrder ["import", ".", "meta"]]]),
    (.arguments, [values "(" ")"])]

/-- A string between two quotes. -/
def quoted (quote : Quote) (text : Terminal) (special : Terminal) : Rule :=
  inOrder [quote.mark.toString, any (oneOf [text, special]), quote.mark.toString]

/-- Strings, templates and regular expressions. -/
def literalRules : Rules :=
  [(.string,
      [oneOf [quoted .double (.fragment .double) .escape,
        quoted .single (.fragment .single) .escape]]),
    (.template,
      [inOrder ["`", any (oneOf [Terminal.templateText, Terminal.escape, Phrase.substitution]),
        "`"]]),
    (.substitution, [inOrder ["$\x7b", expressions, "\x7d"]]),
    (.regex,
      [inOrder ["/", Terminal.regexBody, Terminal.regexEnd, optional Terminal.regexFlags]])]

end MessageCatalog.Script
