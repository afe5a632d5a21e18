import MessageCatalog.Script.Grammar.Fragment

/-!
# MessageCatalog.Script.Grammar.Statement -- modules, declarations and statements

A script is a sequence of statements. Returning and waiting are allowed at the outermost level. A
block that is tried without a handler, and other parts that make a whole statement useless, are no
errors of the grammar.
-/

namespace MessageCatalog.Script

open Rule Fragment

/-- Scripts, and the names that modules give and take. -/
def moduleRules : Rules :=
  [(.script, [inOrder [optional Terminal.hashBang, any Phrase.statement]]),
    (.exportStatement,
      [inOrder
        ["export",
          oneOf [both "*" Phrase.fromClause, both Phrase.namespaceExport Phrase.fromClause,
            both Phrase.exportClause Phrase.fromClause, Phrase.exportClause],
          semicolon],
        inOrder
        [any Phrase.decorator, "export",
          oneOf [Phrase.declaration,
            both "default" (oneOf [Phrase.declaration, both Phrase.expression semicolon])]]]),
    (.namespaceExport, [inOrder ["*", "as", Phrase.moduleName]]),
    (.exportClause, [inOrder ["\x7b", anyList Phrase.exportSpecifier, optional ",", "\x7d"]]),
    (.exportSpecifier, [both Phrase.moduleName (optional (both "as" Phrase.moduleName))]),
    (.moduleName, [oneOf [Terminal.name, Phrase.string, "default"]]),
    (.declaration,
      [oneOf [Phrase.functionDeclaration, Phrase.generatorDeclaration, Phrase.classDeclaration,
        Phrase.lexicalDeclaration, Phrase.variableDeclaration, Phrase.usingDeclaration]]),
    (.importWord, ["import"]),
    (.importStatement,
      [inOrder ["import", oneOf [both Phrase.importClause Phrase.fromClause, Phrase.string],
        optional Phrase.importAttribute, semicolon]]),
    (.importClause,
      [oneOf [Phrase.namespaceImport, Phrase.namedImports,
        both Terminal.name
          (optional (both "," (oneOf [Phrase.namespaceImport, Phrase.namedImports])))]]),
    (.fromClause, [both "from" Phrase.string]),
    (.namespaceImport, [inOrder ["*", "as", Terminal.name]]),
    (.namedImports, [inOrder ["\x7b", anyList Phrase.importSpecifier, optional ",", "\x7d"]]),
    (.importSpecifier,
      [oneOf [Terminal.name, inOrder [Phrase.moduleName, "as", Terminal.name]]]),
    (.importAttribute, [both "with" Phrase.object])]

/-- Statements. -/
def statementRules : Rules :=
  [(.statement,
      [oneOf [Phrase.exportStatement, Phrase.importStatement, Phrase.debuggerStatement,
        Phrase.expressionStatement, Phrase.declaration, Phrase.block, Phrase.ifStatement,
        Phrase.switchStatement, Phrase.forStatement, Phrase.forInStatement, Phrase.whileStatement,
        Phrase.doStatement, Phrase.tryStatement, Phrase.withStatement, Phrase.breakStatement,
        Phrase.continueStatement, Phrase.returnStatement, Phrase.throwStatement,
        Phrase.emptyStatement, Phrase.labeledStatement]]),
    (.expressionStatement, [both expressions semicolon]),
    (.variableDeclaration, [inOrder ["var", list Phrase.declarator, semicolon]]),
    (.lexicalDeclaration, [inOrder [oneOf ["let", "const"], list Phrase.declarator, semicolon]]),
    (.usingDeclaration,
      [inOrder [oneOf ["using", both "await" "using"], list Phrase.declarator, semicolon]]),
    (.declarator, [both binding (optional Phrase.initializer)]),
    (.block,
      [{ rule := inOrder ["\x7b", any Phrase.statement, "\x7d", optional Terminal.statementEnd]
         side := some .right }]),
    (.elseClause, [both "else" Phrase.statement]),
    (.ifStatement,
      [{ rule := inOrder ["if", Phrase.parenthesized, Phrase.statement, optional Phrase.elseClause]
         side := some .right }]),
    (.switchStatement, [inOrder ["switch", Phrase.parenthesized, Phrase.switchBody]]),
    (.forStatement,
      [inOrder ["for", "(",
        oneOf [Phrase.lexicalDeclaration, Phrase.variableDeclaration, both expressions ";",
          Phrase.emptyStatement],
        oneOf [both expressions ";", Phrase.emptyStatement], optional expressions, ")",
        Phrase.statement]]),
    (.forInStatement, [inOrder ["for", optional "await", Phrase.forHeader, Phrase.statement]]),
    (.forHeader,
      [inOrder ["(",
        oneOf [left, Phrase.parenthesized, inOrder ["var", binding, optional Phrase.initializer],
          inOrder [oneOf ["let", "const"], binding, optional Terminal.statementEnd],
          inOrder [oneOf ["using", both "await" "using"], binding,
            optional Terminal.statementEnd]],
        oneOf ["in", "of"], expressions, ")"]]),
    (.whileStatement, [inOrder ["while", Phrase.parenthesized, Phrase.statement]]),
    (.doStatement,
      [{ rule := inOrder
          ["do", Phrase.statement, "while", Phrase.parenthesized, optional semicolon]
         side := some .right }]),
    (.tryStatement,
      [inOrder ["try", Phrase.block, optional Phrase.catchClause, optional Phrase.finallyClause]]),
    (.withStatement, [inOrder ["with", Phrase.parenthesized, Phrase.statement]]),
    (.breakStatement,
      [inOrder ["break", optional (reported .label Terminal.name), semicolon]]),
    (.continueStatement,
      [inOrder ["continue", optional (reported .label Terminal.name), semicolon]]),
    (.debuggerStatement, [both "debugger" semicolon]),
    (.returnStatement, [inOrder ["return", optional expressions, semicolon]]),
    (.throwStatement, [inOrder ["throw", expressions, semicolon]]),
    (.emptyStatement, [";"]),
    (.labeledStatement,
      [{ rule := inOrder [named .label, ":", Phrase.statement]
         weight := -1 }]),
    (.switchBody,
      [inOrder ["\x7b", any (oneOf [Phrase.switchCase, Phrase.switchDefault]), "\x7d"]]),
    (.switchCase, [inOrder ["case", expressions, ":", any Phrase.statement]]),
    (.switchDefault, [inOrder ["default", ":", any Phrase.statement]]),
    (.catchClause,
      [inOrder ["catch", optional (inOrder ["(", binding, ")"]), Phrase.block]]),
    (.finallyClause, [both "finally" Phrase.block]),
    (.parenthesized, [inOrder ["(", expressions, ")"]])]

end MessageCatalog.Script
