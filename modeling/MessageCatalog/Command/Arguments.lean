import MessageCatalog.Config.Target
import MessageCatalog.Text.Search

/-!
# MessageCatalog.Command.Arguments -- the arguments of the command

The command takes options, the name of an operation and files. Options stand before or after the
names. A long option may be cut short as long as it is the only one that fits; short options without
a value may be written together, and a value may follow its option directly. Two hyphens alone end
the options. The names have to stand together: the operation and its files are taken where the first
name is found.
-/

namespace MessageCatalog.Command

open MessageCatalog.Config MessageCatalog.Text

/-- The options of the command. -/
inductive OptionName where
  | help
  | config
  | verbose
  | quiet
  deriving DecidableEq, Repr

namespace OptionName

/-- All options. -/
def all : List OptionName := [.help, .config, .verbose, .quiet]

/-- The long form of an option. -/
def long : OptionName → List Char
  | .help => "--help".toList
  | .config => "--config".toList
  | .verbose => "--verbose".toList
  | .quiet => "--quiet".toList

/-- The letter of an option. -/
def letter : OptionName → Char
  | .help => 'h'
  | .config => 'c'
  | .verbose => 'v'
  | .quiet => 'q'

/-- The option of a letter. -/
def ofLetter? (c : Char) : Option OptionName := all.find? fun name => name.letter == c

/-- The options whose long form starts in some way. A form written out in full is itself alone. -/
def ofLong (start : List Char) : List OptionName :=
  match all.find? fun name => name.long == start with
  | some name => [name]
  | none => all.filter fun name => startsWith start name.long

end OptionName

/-- Why the arguments do not lead to an operation: they ask for help, or they are not understood. -/
inductive Stop where
  | help
  | misuse
  deriving DecidableEq, Repr

/-- The status of a run that ends before an operation. -/
def Stop.status : Stop → Nat
  | .help => 0
  | .misuse => 2

/-! ## Single arguments -/

/-- What an argument is. -/
inductive Argument where
  | name (text : String)
  /-- The first two hyphens that stand alone. -/
  | separator
  /-- An option and what is written behind it in the same argument. -/
  | option (name : OptionName) (tail : List Char)
  | unknownOption
  deriving DecidableEq, Repr

/-- Whether a text is a number with a minus sign. -/
def isNegativeNumber (text : List Char) : Bool :=
  match text with
  | '-' :: rest =>
    let whole := rest.takeWhile isDecimalDigit
    match rest.dropWhile isDecimalDigit with
    | [] => !whole.isEmpty
    | '.' :: fraction => !fraction.isEmpty && fraction.all isDecimalDigit
    | _ => false
  | _ => false

/-- Reads an argument in the long form of an option. -/
def readLong (text : List Char) : Except Stop Argument :=
  let form := text.takeWhile (· != '=')
  match OptionName.ofLong form with
  | [name] => .ok (.option name (text.drop form.length))
  | [] => .ok (if text.contains ' ' then .name (String.ofList text) else .unknownOption)
  | _ => .error .misuse

/-- Reads an argument before the separator. -/
def readArgument (text : String) : Except Stop Argument :=
  match text.toList with
  | '-' :: '-' :: rest => readLong ('-' :: '-' :: rest)
  | '-' :: c :: rest =>
    match OptionName.ofLetter? c with
    | some name => .ok (.option name rest)
    | none =>
      if isNegativeNumber ('-' :: c :: rest) || (c :: rest).contains ' ' then .ok (.name text)
      else .ok .unknownOption
  | _ => .ok (.name text)

/-- Reads all arguments. Behind the separator everything is a name. -/
def readArguments : List String → Except Stop (List Argument)
  | [] => .ok []
  | text :: rest =>
    if text == "--" then .ok (.separator :: rest.map .name)
    else do
      let argument ← readArgument text
      return argument :: (← readArguments rest)

/-! ## The request -/

/-- What the arguments ask for, as far as they have been taken in. -/
structure Request where
  config : String := "locales.toml"
  verbose : Bool := false
  quiet : Bool := false
  operation : Option Operation := none
  files : List String := []
  /-- Whether something was left over that belongs nowhere. -/
  leftOver : Bool := false
  deriving DecidableEq, Repr

namespace Request

/-- Takes in an option that has no value. Asking for more and for less at once is a misuse. -/
def takeFlag (r : Request) : OptionName → Except Stop Request
  | .help => .error .help
  | .verbose => if r.quiet then .error .misuse else .ok { r with verbose := true }
  | .quiet => if r.verbose then .error .misuse else .ok { r with quiet := true }
  | .config => .ok r

/-- Takes in options without a value, in order. -/
def takeFlags (r : Request) : List OptionName → Except Stop Request
  | [] => .ok r
  | name :: rest => do takeFlags (← r.takeFlag name) rest

end Request

/-- Options that are written together: those without a value, and how the argument ends. -/
structure Cluster where
  flags : List OptionName
  /-- The last option takes a value: the rest of the argument, or else the next argument. -/
  value : Option (Option (List Char))
  /-- A letter that is no option ends the cluster. -/
  leftOver : Bool
  deriving DecidableEq, Repr

/-- Takes apart what is written behind an option. -/
def clusterOf (name : OptionName) : List Char → Except Stop Cluster
  | [] => .ok (if name == .config then ⟨[], some none, false⟩ else ⟨[name], none, false⟩)
  | '=' :: value =>
    if name == .config then .ok ⟨[], some (some value), false⟩ else .error .misuse
  | c :: rest =>
    if name == .config then .ok ⟨[], some (some (c :: rest)), false⟩
    else if c == '-' then .error .misuse
    else
      match OptionName.ofLetter? c with
      | none => .ok ⟨[name], none, true⟩
      | some next =>
        (clusterOf next rest).map fun cluster => { cluster with flags := name :: cluster.flags }

/-- Whether an argument is a name or the separator. -/
def Argument.isPlain : Argument → Bool
  | .name _ => true
  | .separator => true
  | _ => false

/-- The text of an argument that is a name or the separator. -/
def Argument.text : Argument → String
  | .name text => text
  | _ => "--"

/-- The operation and the files among names that stand together. Two hyphens alone are dropped once
before the operation or behind it, and once among the files. -/
def namesOf (chunk : List Argument) : Option (String × List String) :=
  let named :=
    match chunk with
    | .separator :: rest => rest
    | _ => chunk
  match named with
  | .name operation :: .separator :: rest => some (operation, (rest.map Argument.text).erase "--")
  | .name operation :: rest => some (operation, (rest.map Argument.text).erase "--")
  | _ => none

/-- Takes in names that stand together. -/
def Request.takeNames (r : Request) (chunk : List Argument) : Except Stop Request :=
  if r.operation.isSome then .ok { r with leftOver := true }
  else
    match namesOf chunk with
    | none => .ok { r with leftOver := true }
    | some (name, files) =>
      match Operation.ofName? name with
      | some operation => .ok { r with operation := some operation, files }
      | none => .error .misuse

/-- Takes in arguments. There are no more steps than arguments. -/
def Request.takeAll : (fuel : Nat) → Request → List Argument → Except Stop Request
  | 0, r, _ => .ok r
  | _, r, [] => .ok r
  | fuel + 1, r, .unknownOption :: rest => takeAll fuel { r with leftOver := true } rest
  | fuel + 1, r, .option name tail :: rest => do
    let cluster ← clusterOf name tail
    match cluster.value, rest with
    | none, _ =>
      let r ← r.takeFlags cluster.flags
      takeAll fuel { r with leftOver := r.leftOver || cluster.leftOver } rest
    | some (some value), _ =>
      let r ← r.takeFlags cluster.flags
      takeAll fuel { r with config := String.ofList value } rest
    | some none, .name value :: rest =>
      let r ← r.takeFlags cluster.flags
      takeAll fuel { r with config := value } rest
    | some none, _ => .error .misuse
  | fuel + 1, r, argument :: rest => do
    let chunk := argument :: rest.takeWhile Argument.isPlain
    let r ← r.takeNames chunk
    takeAll fuel r (rest.dropWhile Argument.isPlain)

/-- Reads what the arguments ask for: an operation is needed, and nothing may be left over. -/
def Request.ofArguments (texts : List String) : Except Stop (Request × Operation) := do
  let arguments ← readArguments texts
  let request ← Request.takeAll (arguments.length + 1) {} arguments
  match request.operation with
  | some operation => if request.leftOver then .error .misuse else return (request, operation)
  | none => .error .misuse

end MessageCatalog.Command
