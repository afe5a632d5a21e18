import MessageCatalog.Script.Automaton

/-!
# MessageCatalog.Script.Scan -- the terminal at a place

Which terminal stands at a place depends on what is expected there. Terminals that need a look
further ahead are tried first: the text of templates and markup, the end of a statement without a
semicolon, the mark of a condition, and comments that start like those of markup. Otherwise the
longest terminal is taken. A word is a keyword where the keyword is expected or where it can never
be a name.
-/

namespace MessageCatalog.Script

open MessageCatalog.Text

/-- A terminal that was found: how much white space is before it, and its length. -/
structure Scanned where
  symbol : Symbol
  gap : Nat
  length : Nat
  deriving DecidableEq, Repr, Inhabited

/-! ## The end of a statement -/

/-- What was found in front of the next token. -/
inductive Margin where
  /-- A slash that starts no comment. -/
  | slash
  /-- A comment on one line, with something behind it. -/
  | inline
  /-- Anything else. -/
  | passed
  deriving DecidableEq, Repr

/-- White space and comments that were passed. -/
structure Passed where
  margin : Margin
  sawComment : Bool
  count : Nat
  rest : List Char

/-- Passes white space and comments. Unless all is to be passed, a block comment is the end; what it
counts for depends on whether it holds a line end. -/
def passMargin (all : Bool) :
    (bound : Nat) → (sawComment sawLineEnd : Bool) → (count : Nat) → List Char → Passed
  | 0, sawComment, _, count, text => ⟨.passed, sawComment, count, text⟩
  | bound + 1, sawComment, sawLineEnd, count, text =>
    let blanks := runLength isBreakingSpace text
    let text := text.drop blanks
    let count := count + blanks
    match text with
    | '/' :: '/' :: cs =>
      let n := runLength (fun c => !isLineEnd c) cs
      passMargin all bound true sawLineEnd (count + 2 + n) (cs.drop n)
    | '/' :: '*' :: cs =>
      match blockCommentEnd? cs 0 with
      | none => ⟨.passed, sawComment, count + 2 + cs.length, []⟩
      | some n =>
        let sawLineEnd := sawLineEnd || (cs.take n).any isLineEnd
        let rest := cs.drop n
        if all || rest.head? == some '/' then
          passMargin all bound true sawLineEnd (count + 2 + n) rest
        else ⟨if sawLineEnd then .passed else .inline, true, count + 2 + n, rest⟩
    | '/' :: cs => ⟨.slash, sawComment, count + 1, cs⟩
    | _ => ⟨.passed, sawComment, count, text⟩

/-- Whether a statement ends at some place, what was passed to find out, and whether a comment was
among it. -/
structure Ending where
  ends : Bool
  sawComment : Bool
  count : Nat
  rest : List Char

/-- Whether a letter is next. -/
def letterAhead (text : List Char) : Bool :=
  text.head?.any fun c => isWord c && c != '_' && !isAsciiDigit c

/-- Whether a line that starts like this starts a statement of its own, and how far one has to look
to see it. -/
def startsStatement (text : List Char) : Bool × Nat :=
  match text with
  | [] => (true, 0)
  | '.' :: cs => ((cs.head?.map isAsciiDigit).getD false, 1)
  | '+' :: cs => (cs.head? == some '+', 1)
  | '-' :: cs => (cs.head? == some '-', 1)
  | '!' :: cs => (cs.head? != some '=', 1)
  | 'i' :: 'n' :: cs =>
    if !letterAhead cs then (false, 2)
    else match after? "stanceof".toList cs with
      | some cs => (letterAhead cs, 10)
      | none => (true, 2)
  | c :: _ => (!"`,:;*%><=[(?^|&/".toList.contains c, 0)

/-- Looks for the end of a statement behind a line end. -/
def endAtLine (sawComment : Bool) (count : Nat) (text : List Char) : Ending :=
  let passed := passMargin true (text.length + 1) sawComment false count text
  if passed.margin == .slash then ⟨false, passed.sawComment, passed.count, passed.rest⟩
  else
    let (ends, n) := startsStatement passed.rest
    ⟨ends, passed.sawComment, passed.count + n, passed.rest.drop n⟩

/-- Looks for the end of a statement: the end of the script or of a block, or a line end unless the
next line goes on with the statement. After a word that needs no operand, a comment with a line end
ends the statement too. -/
def findEnd (afterOperand : Bool) : (bound : Nat) → (sawComment : Bool) → (count : Nat) →
    List Char → Ending
  | 0, sawComment, count, text => ⟨false, sawComment, count, text⟩
  | _, sawComment, count, [] => ⟨true, sawComment, count, []⟩
  | bound + 1, sawComment, count, c :: cs =>
    let goOn (sawComment : Bool) (count : Nat) (text : List Char) : Ending :=
      match text with
      | [] => ⟨false, sawComment, count, []⟩
      | c :: cs =>
        if c == '\x7d' then ⟨true, sawComment, count, text⟩
        else if isLineEnd c then endAtLine sawComment (count + 1) cs
        else if isBreakingSpace c then findEnd afterOperand bound sawComment (count + 1) cs
        else ⟨false, sawComment, count, text⟩
    if c == '\x00' then ⟨true, sawComment, count, c :: cs⟩
    else if c == '/' then
      let passed := passMargin false (cs.length + 2) sawComment false count (c :: cs)
      let next := passed.rest.head?
      if passed.margin == .slash then ⟨false, passed.sawComment, passed.count, passed.rest⟩
      else if passed.margin == .passed && !afterOperand && next != some ',' && next != some '=' then
        ⟨true, passed.sawComment, passed.count, passed.rest⟩
      else goOn passed.sawComment passed.count passed.rest
    else goOn sawComment count (c :: cs)

/-! ## Terminals that need a look further ahead -/

/-- Whether a terminal is expected. -/
def expects (expected : TerminalSet) (s : Symbol) : Bool := expected.testBit s

/-- The number of the end of a statement. -/
def statementEndSymbol : Symbol := Terminal.statementEnd.symbol

/-- The number of the mark of a condition. -/
def conditionMarkSymbol : Symbol := Terminal.conditionMark.symbol

/-- The number of the text of a template. -/
def templateTextSymbol : Symbol := Terminal.templateText.symbol

/-- The number of the text of markup. -/
def markupTextSymbol : Symbol := Terminal.markupText.symbol

/-- The number of a comment that starts like one of markup. -/
def markCommentSymbol : Symbol := Terminal.markComment.symbol

/-- The number of an operator that may only stand behind an operand. -/
def orSymbol : Symbol := (Terminal.exact "||").symbol

/-- The number of an escape. -/
def escapeSymbol : Symbol := Terminal.escape.symbol

/-- The number of the body of a regular expression. -/
def regexBodySymbol : Symbol := Terminal.regexBody.symbol

/-- The mark of a condition behind white space. A question mark that belongs to an operator of more
characters is none, but one before a decimal fraction is. -/
def conditionMarkAt (count : Nat) (text : List Char) : Option Scanned :=
  let blanks := runLength isBreakingSpace text
  let found : Scanned := ⟨conditionMarkSymbol, count + blanks, 1⟩
  match text.drop blanks with
  | '?' :: '?' :: _ => none
  | '?' :: '.' :: c :: _ => if isAsciiDigit c then some found else none
  | '?' :: '.' :: [] => none
  | '?' :: _ => some found
  | _ => none

/-- A comment that starts like one of markup, behind white space. -/
def markCommentAt (text : List Char) : Option Scanned :=
  let blanks := runLength isBreakingSpace text
  match markCommentLength (text.drop blanks) with
  | 0 => none
  | n => some ⟨markCommentSymbol, blanks, n⟩

/-- The end of a statement, or the mark of a condition where the statement goes on with one. -/
def statementEndAt (expected : TerminalSet) (text : List Char) : Option Scanned :=
  let found := findEnd (expects expected orSymbol) (text.length + 1) false 0 text
  if found.ends then some ⟨statementEndSymbol, 0, 0⟩
  else if !found.sawComment && expects expected conditionMarkSymbol then
    if found.rest.head? == some '?' then conditionMarkAt found.count found.rest else none
  else none

/-- The terminal at a place that needs a look further ahead, if there is one. -/
def scanAhead (expected : TerminalSet) (text : List Char) : Option Scanned :=
  if expects expected templateTextSymbol then
    if expects expected statementEndSymbol then none
    else match templateTextLength text with
      | 0 => none
      | n => some ⟨templateTextSymbol, 0, n⟩
  else
    let markup := if expects expected markupTextSymbol then markupTextLength text else 0
    if markup != 0 then some ⟨markupTextSymbol, 0, markup⟩
    else if expects expected statementEndSymbol then statementEndAt expected text
    else if expects expected conditionMarkSymbol then conditionMarkAt 0 text
    else if !expects expected orSymbol && !expects expected escapeSymbol &&
        !expects expected regexBodySymbol then markCommentAt text
    else none

/-! ## Other terminals -/

/-- The terminals with their numbers, except words and those that need a look further ahead. -/
def plainTerminals : List (Symbol × Terminal) :=
  (terminalTable.toList.zipIdx.map fun (t, i) => (i, t)).filter fun (_, t) =>
    !t.isWord && !contextual.contains t && t != .ending && t != .name

/-- The terminals that have to follow the one before them directly. -/
def immediateTerminals : List (Symbol × Terminal) := plainTerminals.filter (·.2.isImmediate)

/-- The terminals that may follow the one before them at a distance. -/
def distantTerminals : List (Symbol × Terminal) := plainTerminals.filter (!·.2.isImmediate)

/-- The number of a name. -/
def nameSymbol : Symbol := Terminal.name.symbol

/-- The terminals that are made of the characters of a name. -/
def wordSet : TerminalSet :=
  terminalTable.toList.zipIdx.foldl
    (fun set (t, i) => if t.isWord || t == .name then set ||| .only i else set) 0

/-- A terminal that could be taken. -/
structure Candidate where
  preference : Nat
  found : Scanned

/-- The better of two candidates: the one of higher preference, or else the one that reaches
further. -/
def Candidate.better (known : Option Candidate) (other : Candidate) : Option Candidate :=
  match known with
  | none => some other
  | some c =>
    if c.preference != other.preference then
      if c.preference < other.preference then some other else known
    else if c.found.gap + c.found.length < other.found.gap + other.found.length then some other
    else known

/-- The best of the candidates among some terminals behind a gap. -/
def bestOf (expected : TerminalSet) (gap : Nat) (text : List Char) (known : Option Candidate)
    (terminals : List (Symbol × Terminal)) : Option Candidate :=
  terminals.foldl (fun known (s, t) =>
    if expects expected s || t == .comment then
      match t.lengthAt text with
      | 0 => known
      | n => Candidate.better known ⟨t.preference, ⟨s, gap, n⟩⟩
    else known) known

/-- What a word is where some terminals are expected. -/
def wordSymbol (expected : TerminalSet) (word : String) : Symbol :=
  match terminalNumbers[Terminal.exact word]? with
  | none => nameSymbol
  | some s =>
    let isReserved := !expects expected terminalCount && reservedWords.contains word
    if expects expected s || isReserved then s else nameSymbol

/-- The terminal at a place that is found by its own characters, if there is one. -/
def scanPlain (expected : TerminalSet) (text : List Char) : Option Scanned :=
  let gap := runLength isSpace text
  let rest := text.drop gap
  let near := bestOf expected 0 text none immediateTerminals
  let far := bestOf expected gap rest near distantTerminals
  let word := if expected &&& wordSet == 0 then 0 else nameLength rest
  let best := if word == 0 then far else Candidate.better far ⟨1, ⟨nameSymbol, gap, word⟩⟩
  match best with
  | some c =>
    if c.found.symbol == nameSymbol then
      some { c.found with symbol := wordSymbol expected (String.ofList (rest.take word)) }
    else some c.found
  | none => if rest.isEmpty then some ⟨Terminal.ending.symbol, gap, 0⟩ else none

/-- The terminal at a place where some are expected, if there is one. -/
def scan (expected : TerminalSet) (text : List Char) : Option Scanned :=
  scanAhead expected text <|> scanPlain expected text

end MessageCatalog.Script
