import MessageCatalog.Text.Character

/-!
# MessageCatalog.Text.Search -- finding, splitting and replacing parts of a text

Everything is a function on the list of characters. Parts are found from the left and never overlap.
-/

namespace MessageCatalog.Text

/-! ## Taking a part off the front -/

/-- What follows `part` when the text starts with it. -/
def after? (part : List Char) (text : List Char) : Option (List Char) :=
  match part, text with
  | [], rest => some rest
  | _ :: _, [] => none
  | p :: ps, c :: cs => if p == c then after? ps cs else none

/-- What follows a name at the front of a text, whatever the case of its letters. -/
def afterName? : (name : List Char) → List Char → Option (List Char)
  | [], text => some text
  | _ :: _, [] => none
  | n :: ns, c :: cs => if sameLetter n c then afterName? ns cs else none

/-- Whether a text starts with a part. -/
def startsWith (part text : List Char) : Bool := (after? part text).isSome

/-- Whether a text ends with a part. -/
def endsWith (part text : List Char) : Bool := startsWith part.reverse text.reverse

/-- The text before the first place where `stop` holds of what follows, and what follows there. -/
def breakWhere (stop : List Char → Bool) : List Char → Option (List Char × List Char)
  | [] => if stop [] then some ([], []) else none
  | c :: cs =>
    if stop (c :: cs) then some ([], c :: cs)
    else (breakWhere stop cs).map fun (before, rest) => (c :: before, rest)

/-- The text before the first occurrence of a part and the text after it. -/
def splitAtFirst (part text : List Char) : Option (List Char × List Char) :=
  (breakWhere (startsWith part) text).map fun (before, rest) => (before, rest.drop part.length)

/-- Whether a part occurs anywhere in a text. -/
def occursIn (part text : List Char) : Bool := (breakWhere (startsWith part) text).isSome

/-! ## Splitting and joining -/

/-- The pieces between the characters that are separators; always at least one. -/
def splitOnChar (isSeparator : Char → Bool) : List Char → List (List Char)
  | [] => [[]]
  | c :: cs =>
    if isSeparator c then [] :: splitOnChar isSeparator cs
    else match splitOnChar isSeparator cs with
      | [] => [[c]]
      | piece :: pieces => (c :: piece) :: pieces

/-- The maximal runs of characters that are not separators. -/
def words (isSeparator : Char → Bool) (text : List Char) : List (List Char) :=
  (splitOnChar isSeparator text).filter fun piece => !piece.isEmpty

/-- The texts one after the other with a separator between neighbours. -/
def joinWith (separator : List Char) : List (List Char) → List Char
  | [] => []
  | [piece] => piece
  | piece :: next :: pieces => piece ++ separator ++ joinWith separator (next :: pieces)

/-! ## Trimming -/

/-- The text without the characters of a class at its end. -/
def trimEnd (inClass : Char → Bool) (text : List Char) : List Char :=
  (text.reverse.dropWhile inClass).reverse

/-- The text without the characters of a class at either end. -/
def trim (inClass : Char → Bool) (text : List Char) : List Char :=
  trimEnd inClass (text.dropWhile inClass)

/-! ## Replacing -/

/-- Replaces every occurrence of a non-empty part, scanning `skip` characters further after each
hit. -/
def replacePart (part replacement : List Char) : (skip : Nat) → List Char → List Char
  | _, [] => []
  | skip + 1, _ :: cs => replacePart part replacement skip cs
  | 0, c :: cs =>
    if startsWith part (c :: cs) then
      replacement ++ replacePart part replacement (part.length - 1) cs
    else c :: replacePart part replacement 0 cs

/-- Replaces every occurrence of a part. An empty part occurs between all characters and at both
ends. -/
def replaceAll (part replacement text : List Char) : List Char :=
  if part.isEmpty then replacement ++ text.flatMap fun c => c :: replacement
  else replacePart part replacement 0 text

/-- Line ends of all three kinds become line feeds. -/
def unifyLineEnds : List Char → List Char
  | [] => []
  | '\r' :: '\n' :: cs => '\n' :: unifyLineEnds cs
  | '\r' :: cs => '\n' :: unifyLineEnds cs
  | c :: cs => c :: unifyLineEnds cs

/-! ## Lists without repetition -/

/-- Adds an element at the end unless it is there already. -/
def addNew {α : Type} [BEq α] (xs : List α) (x : α) : List α :=
  if xs.contains x then xs else xs ++ [x]

/-- Keeps the first of several equal elements. -/
def distinct {α : Type} [BEq α] (xs : List α) : List α := xs.foldl addNew []

end MessageCatalog.Text
