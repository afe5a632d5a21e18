import MessageCatalog.Text.Search

/-!
# MessageCatalog.Occurrence.Inner -- the source of an element's content

The content of an element as it is written, from behind its start tag to the end tag that closes it.
Elements of the same name inside are counted, comments are skipped, and quoted values of attributes
may hold anything.
-/

namespace MessageCatalog.Occurrence

open MessageCatalog.Text

/-- The rest of a tag, from behind its name: what it holds before its end, and what follows. A
quoted value ends at its quote, and a quote that nothing closes leaves no tag. -/
def tagRest (quote : Option Char) : List Char → Option (List Char × List Char)
  | [] => none
  | c :: rest =>
    match quote with
    | some q =>
      (tagRest (if c == q then none else quote) rest).map fun (inside, after) =>
        (c :: inside, after)
    | none =>
      if c == '>' then some ([], rest)
      else
        (tagRest (if c == '"' || c == '\'' then some c else none) rest).map
          fun (inside, after) => (c :: inside, after)

/-- Whether the inside of a tag closes the element at once. -/
def closesItself (inside : List Char) : Bool := inside.getLast? == some '/'

/-- What can stand between texts while the end of an element is looked for. -/
inductive Mark where
  | comment
  | opening
  | closing
  /-- A start tag that closes its element at once. -/
  | closed
  deriving DecidableEq, Repr

/-- Whether the name of a tag ends before some text. -/
def endsName : List Char → Bool
  | c :: _ => isBlank c || c == '/' || c == '>'
  | [] => false

/-- The mark that a text starts with, and what follows it. -/
def markAt? (name : List Char) (text : List Char) : Option (Mark × List Char) :=
  match after? "<!--".toList text with
  | some inside => (splitAtFirst "-->".toList inside).map fun (_, rest) => (.comment, rest)
  | none => do
    let tag ← after? ['<'] text
    let (slash, named) :=
      match tag with
      | '/' :: rest => (true, rest)
      | _ => (false, tag)
    let rest ← afterName? name named
    if !endsName rest then none
    let (inside, after) ← tagRest none rest
    return (if slash then .closing else if closesItself inside then .closed else .opening, after)

/-- The text before the end tag that closes elements of a name, so many of which are open. -/
def upToClosing (name : List Char) : (fuel open' : Nat) → List Char → Option (List Char)
  | 0, _, _ => none
  | _, _, [] => none
  | fuel + 1, open', c :: rest =>
    match markAt? name (c :: rest) with
    | none => (upToClosing name fuel open' rest).map (c :: ·)
    | some (mark, after) =>
      let passed := (c :: rest).take (rest.length + 1 - after.length)
      match mark, open' with
      | .closing, 0 => some []
      | .closing, open' + 1 => (upToClosing name fuel open' after).map (passed ++ ·)
      | .opening, _ => (upToClosing name fuel (open' + 1) after).map (passed ++ ·)
      | _, _ => (upToClosing name fuel open' after).map (passed ++ ·)

/-- The source of the content of an element whose start tag is at an offset of a text. There is none
when the element has no end tag of its own. -/
def innerSource (text : List Char) (name : List Char) (offset : Nat) : Option (List Char) := do
  let tag ← after? ['<'] (text.drop offset)
  let (inside, rest) ← tagRest none tag
  if closesItself inside then none
  upToClosing name (rest.length + 1) 0 rest

end MessageCatalog.Occurrence
