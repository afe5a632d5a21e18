import MessageCatalog.Text.Character

/-!
# MessageCatalog.Bundle.Template -- texts with places to fill

A dollar sign with a name behind it, in braces or not, stands for the value of the name. Two dollar
signs stand for one. A name without a value and a dollar sign with anything else behind it stay as
they are, so that a template can hold scripts with dollar signs of their own. Values are not looked
into again.
-/

namespace MessageCatalog.Bundle

open MessageCatalog.Text

/-- Whether a character can start a name. -/
def startsName (c : Char) : Bool := isAsciiLetter c || c == '_'

/-- Whether a character can follow in a name. -/
def continuesName (c : Char) : Bool := isAsciiAlphanumeric c || c == '_'

/-- The name at the start of a text, as long as it can be. -/
def nameAt (text : List Char) : List Char :=
  match text with
  | c :: _ => if startsName c then text.takeWhile continuesName else []
  | [] => []

/-- What stands behind a dollar sign: a name, and how many characters spell it. -/
def placeholderAt (text : List Char) : Option (List Char × Nat) :=
  match text with
  | '\x7b' :: rest =>
    let name := nameAt rest
    if !name.isEmpty && (rest.drop name.length).head? == some '\x7d' then
      some (name, name.length + 2)
    else none
  | _ =>
    let name := nameAt text
    if name.isEmpty then none else some (name, name.length)

/-- Fills a template, passing over so many characters first. -/
def fillFrom (values : List (String × List Char)) : (skip : Nat) → List Char → List Char
  | _, [] => []
  | skip + 1, _ :: rest => fillFrom values skip rest
  | 0, c :: rest =>
    if c != '$' then c :: fillFrom values 0 rest
    else if rest.head? == some '$' then '$' :: fillFrom values 1 rest
    else
      match placeholderAt rest with
      | none => c :: fillFrom values 0 rest
      | some (name, length) =>
        match values.lookup (String.ofList name) with
        | some value => value ++ fillFrom values length rest
        | none => c :: fillFrom values 0 rest

/-- Fills a template. -/
def fill (values : List (String × List Char)) (template : List Char) : List Char :=
  fillFrom values 0 template

end MessageCatalog.Bundle
