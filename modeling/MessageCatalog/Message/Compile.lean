import MessageCatalog.Message.Basic
import MessageCatalog.Script.Literal

/-!
# MessageCatalog.Message.Compile -- messages to scripts

A message becomes a function of one object that holds the arguments. Its body joins the texts of the
elements; helpers of the shared runtime format arguments and choose cases. The cases of a choice are
functions too, so that a number sign inside a nested choice still means the number of the plural
choice around it.
-/

namespace MessageCatalog.Message

open MessageCatalog.Script

/-- A text as a literal of a script. -/
def textLiteral (s : String) : List Char := literal s.toList

mutual
/-- An element as an expression. -/
def Element.script (locale : String) : Element → List Char
  | .text value => textLiteral value
  | .argument name => "MessageFormat.v(d,".toList ++ textLiteral name ++ [')']
  | .number => "MessageFormat.n(n)".toList
  | .format name kind style =>
    let styleScript := match style with
      | none => "null".toList
      | some s => textLiteral s
    "MessageFormat.f(d,".toList ++ textLiteral name ++ [','] ++ textLiteral kind ++ [','] ++
      styleScript ++ [','] ++ textLiteral locale ++ [')']
  | .select name cases =>
    "MessageFormat.s(d,".toList ++ textLiteral name ++ [','] ++
      casesScript locale [] cases ++ [')']
  | .plural name offset ordinal cases =>
    "MessageFormat.p(d,".toList ++ textLiteral name ++ [','] ++ (toString offset).toList ++
      [','] ++ textLiteral locale ++ [','] ++ (if ordinal then "true" else "false").toList ++
      [','] ++ casesScript locale ['n'] cases ++ [')']

/-- The cases of a choice as an object of functions that take some parameters. -/
def casesScript (locale : String) (parameters : List Char) :
    List (String × List Element) → List Char
  | [] => ['\x7b', '\x7d']
  | (key, body) :: rest =>
    '\x7b' :: caseScript locale parameters key body ++ moreCases locale parameters rest ++ ['\x7d']

/-- The cases after the first, each behind a comma. -/
def moreCases (locale : String) (parameters : List Char) :
    List (String × List Element) → List Char
  | [] => []
  | (key, body) :: rest =>
    ',' :: caseScript locale parameters key body ++ moreCases locale parameters rest

/-- One case. -/
def caseScript (locale : String) (parameters : List Char) (key : String)
    (body : List Element) : List Char :=
  textLiteral key ++ ":function(".toList ++ parameters ++ ")\x7breturn ".toList ++
    messageScript locale body ++ ";\x7d".toList

/-- A message as an expression. It starts with a text, so that the elements are joined and not
added. -/
def messageScript (locale : String) : List Element → List Char
  | [] => ['"', '"']
  | .text value :: rest => textLiteral value ++ moreElements locale rest
  | element :: rest =>
    '"' :: '"' :: '+' :: element.script locale ++ moreElements locale rest

/-- The elements after the first, each behind a plus sign. -/
def moreElements (locale : String) : List Element → List Char
  | [] => []
  | element :: rest => '+' :: element.script locale ++ moreElements locale rest
end

/-- A message as a function. -/
def compile (locale : String) (message : Message) : List Char :=
  "function(d)\x7breturn ".toList ++ messageScript locale message ++ ";\x7d".toList

end MessageCatalog.Message
