import MessageCatalog.Script.Grammar.Fragment

/-!
# MessageCatalog.Script.Grammar.Object -- objects, patterns, functions and classes

The same text between braces can be an object, a pattern or a block, and only what follows tells
which. In an object every word is a name of a property; a name that stands alone in a pattern is a
variable that takes the property of its name.
-/

namespace MessageCatalog.Script

open Rule Fragment

/-- Members of braces, any of which may be left out. -/
def members (parts : List Rule) : Form :=
  { rule := inOrder ["\x7b", anyList (optional (oneOf parts)), "\x7d"]
    level := some .object }

/-- Objects and patterns. -/
def objectRules : Rules :=
  [(.object, [members [Phrase.pair, Phrase.spread, Phrase.method, named .identifier]]),
    (.objectPattern,
      [members [Phrase.pairPattern, Phrase.restPattern, Phrase.objectAssignmentPattern,
        named .shorthandPattern]]),
    (.assignmentPattern, [inOrder [Phrase.pattern, "=", Phrase.expression]]),
    (.objectAssignmentPattern,
      [inOrder [oneOf [named .shorthandPattern, Phrase.destructuring], "=", Phrase.expression]]),
    (.arrayPattern, [inOrder ["[", anyList (optional parameter), "]"]]),
    (.destructuring, [oneOf [Phrase.objectPattern, Phrase.arrayPattern]]),
    (.pattern, [{ rule := oneOf [left, Phrase.restPattern], weight := -1 }]),
    (.restPattern, [{ rule := both "..." left, side := some .right }]),
    (.pair, [inOrder [Phrase.propertyName, ":", Phrase.expression]]),
    (.pairPattern,
      [inOrder [Phrase.propertyName, ":", parameter]]),
    (.propertyName,
      [anyWord (oneOf [named .identifier, Terminal.privateName, Phrase.string, Terminal.number,
        Phrase.computedName])]),
    (.computedName, [inOrder ["[", Phrase.expression, "]"]])]

/-- Functions. -/
def functionRules : Rules :=
  [(.functionExpression,
      [{ rule := inOrder [optional "async", "function", optional Terminal.name,
          Phrase.parameters, Phrase.block]
         level := some .literal }]),
    (.functionDeclaration,
      [{ rule := inOrder [optional "async", "function", Terminal.name, Phrase.parameters,
          Phrase.block, optional Terminal.statementEnd]
         level := some .declare, side := some .right }]),
    (.generatorExpression,
      [{ rule := inOrder [optional "async", "function", "*", optional Terminal.name,
          Phrase.parameters, Phrase.block]
         level := some .literal }]),
    (.generatorDeclaration,
      [{ rule := inOrder [optional "async", "function", "*", Terminal.name, Phrase.parameters,
          Phrase.block, optional Terminal.statementEnd]
         level := some .declare, side := some .right }]),
    (.parameters, [inOrder ["(", optional (both (list parameter) (optional ",")), ")"]]),
    (.method,
      [inOrder [any Phrase.decorator, optional (oneOf ["static", Terminal.staticGetter]),
        optional "async", optional (oneOf ["get", "set", "*"]), Phrase.propertyName,
        Phrase.parameters, Phrase.block]])]

/-- Classes. -/
def classRules : Rules :=
  [(.classExpression,
      [{ rule := inOrder [any Phrase.decorator, "class", optional Terminal.name,
          optional Phrase.classHeritage, Phrase.classBody]
         level := some .literal }]),
    (.classDeclaration,
      [{ rule := inOrder [any Phrase.decorator, "class", Terminal.name,
          optional Phrase.classHeritage, Phrase.classBody, optional Terminal.statementEnd]
         level := some .declare }]),
    (.classHeritage, [both "extends" Phrase.expression]),
    (.decorator,
      [both "@" (oneOf [Terminal.name, Phrase.decoratorMember, Phrase.decoratorCall])]),
    (.decoratorMember,
      [{ rule := inOrder [oneOf [Terminal.name, Phrase.decoratorMember], ".", Terminal.name]
         level := some .member }]),
    (.decoratorCall,
      [{ rule := both (oneOf [Terminal.name, Phrase.decoratorMember]) Phrase.arguments
         level := some .call }]),
    (.classBody,
      [inOrder ["\x7b",
        any (oneOf [both Phrase.method (optional ";"), both Phrase.field semicolon,
          Phrase.staticBlock, ";"]), "\x7d"]]),
    (.field,
      [inOrder [any Phrase.decorator, optional "static", Phrase.propertyName,
        optional Phrase.initializer]]),
    (.staticBlock, [both "static" Phrase.block])]

end MessageCatalog.Script
