import MessageCatalog.Config.Options
import MessageCatalog.Occurrence.Basic
import MessageCatalog.Script.Literal
import MessageCatalog.Script.Reading

/-!
# MessageCatalog.Occurrence.Call -- messages that a script holds

A message is the quoted text that is the first argument of a call of one of the functions. Only the
form of the call counts: the name, the parenthesis, the text, and a comma or the closing
parenthesis. A call of such a function in any other form is reported.
-/

namespace MessageCatalog.Occurrence

open MessageCatalog.Config MessageCatalog.Script MessageCatalog.Text

/-- Whether a token is a mark of punctuation. -/
def isMark (token : Token) (mark : String) : Bool :=
  token.kind == .punctuator && token.text == mark

/-- Whether two tokens start a call of one of the functions. -/
def startsCall (functions : List String) (name parenthesis : Token) : Bool :=
  name.kind == .identifier && functions.contains name.text && isMark parenthesis "("

/-- A place in a source, as it is shown. -/
def placeText (path : String) (position : Position) : String :=
  s!"{path}:{position.line}:{position.column}"

/-- What the first argument of a call says, given the token that follows it. -/
def argumentFindings (path : String) (argument closing : Token) : Findings :=
  if argument.kind == .string && (isMark closing ")" || isMark closing ",") then
    match decode argument.text.toList with
    | .ok key => .one path key key
    | .error e =>
      .say ⟨.warning, "Unable to decode locale string from " ++
        placeText path argument.position ++ ": " ++ e.message⟩
  else
    .say ⟨.warning,
      "Unable to parse locale string from " ++ placeText path argument.position ++ "."⟩

/-- The messages of the calls among some tokens. -/
def ofTokens (functions : List String) (path : String) : Tokens → Findings
  | name :: parenthesis :: argument :: closing :: rest =>
    let here :=
      if startsCall functions name parenthesis then argumentFindings path argument closing
      else .none
    here ++ ofTokens functions path (parenthesis :: argument :: closing :: rest)
  | _ => .none

/-- The messages of a script. -/
def ofScript (options : Options) (path : String) (script : List Char) :
    Except SyntaxFault Findings :=
  (tokenize script).map (ofTokens options.functions path)

end MessageCatalog.Occurrence
