import MessageCatalog.Markup.ReferenceTable
import MessageCatalog.Text.Search

/-!
# MessageCatalog.Markup.Reference -- character references

A reference names a character by its code point or by a standard name. In attribute values
references are resolved in place, and a legacy name counts even where other characters follow it
directly, the longest name winning. In text the tokenizer has already cut the reference out.
-/

namespace MessageCatalog.Markup

open MessageCatalog.Text

/-! ## Tables -/

/-- The text that a name stands for, the name given with its semicolon if it has one. -/
def namedReference? (name : List Char) : Option (List Char) :=
  let wanted := String.ofList name
  (namedReferences.find? fun entry => entry.1 == wanted).map fun entry => entry.2.toList

/-- The text that a name stands for, with or without its semicolon. -/
def namedReferenceOf? (name : List Char) : Option (List Char) :=
  (namedReference? (name ++ [';'])).or (namedReference? name)

/-- What the code points from U+0080 to U+009F stand for on pages that mean the Windows character
set. -/
def windowsCharacters : Array Char := #[
  '\u20ac', '\u0081', '\u201a', '\u0192', '\u201e', '\u2026', '\u2020', '\u2021',
  '\u02c6', '\u2030', '\u0160', '\u2039', '\u0152', '\u008d', '\u017d', '\u008f',
  '\u0090', '\u2018', '\u2019', '\u201c', '\u201d', '\u2022', '\u2013', '\u2014',
  '\u02dc', '\u2122', '\u0161', '\u203a', '\u0153', '\u009d', '\u017e', '\u0178']

/-- Whether a number is no code point of a character. -/
def isOutside (code : Nat) : Bool := (0xd800 ≤ code && code < 0xe000) || 0x10ffff < code

/-- The character that a number stands for in text. -/
def characterOf (code : Nat) : Char :=
  if code == 0 || isOutside code then '\ufffd'
  else if 0x80 ≤ code && code < 0xa0 then windowsCharacters.getD (code - 0x80) '\ufffd'
  else Char.ofNat code

/-- Code points that an attribute value drops: controls without a use in text, and the code points
that are set aside as no characters. -/
def isDropped (code : Nat) : Bool :=
  (0x01 ≤ code && code ≤ 0x08) || code == 0x0b || (0x0e ≤ code && code ≤ 0x1f) ||
    (0x7f ≤ code && code ≤ 0x9f) || (0xfdd0 ≤ code && code ≤ 0xfdef) ||
    (code % 0x10000 == 0xfffe) || (code % 0x10000 == 0xffff)

/-- The text that a number stands for in an attribute value. -/
def attributeCharacters (code : Nat) : List Char :=
  if code == 0 || isOutside code then ['\ufffd']
  else if code == 0x0d then ['\r']
  else if 0x80 ≤ code && code < 0xa0 then [windowsCharacters.getD (code - 0x80) '\ufffd']
  else if isDropped code then []
  else [Char.ofNat code]

/-! ## References in text -/

/-- The text of a numeric reference, its digits given as the page writes them: decimal, or
hexadecimal behind an `x`. -/
def numericText (digits : List Char) : List Char :=
  match digits with
  | 'x' :: hex => [characterOf (numeral 16 hex)]
  | 'X' :: hex => [characterOf (numeral 16 hex)]
  | _ => [characterOf (numeral 10 digits)]

/-- The text of a named reference. A name that does not exist is text, behind its ampersand. -/
def namedText (name : List Char) : List Char :=
  (namedReferenceOf? name).getD ('&' :: name)

/-! ## References in attribute values -/

/-- The longest beginning of a name that is a name of its own, at least two characters long, with
its text, and the rest of the name. `size` is the longest length that is still to be tried. -/
def longestName (name : List Char) : (size : Nat) → Option (List Char × List Char)
  | 0 => none
  | 1 => none
  | size + 2 =>
    match namedReference? (name.take (size + 2)) with
    | some text => some (text, name.drop (size + 2))
    | none => longestName name (size + 1)

/-- Whether a character may stand in a named reference of an attribute value. -/
def isReferenceCharacter (c : Char) : Bool :=
  !(c == '\t' || c == '\n' || c == '\x0c' || c == ' ' || c == '<' || c == '&' || c == '#' ||
    c == ';')

/-- Reads the reference after an ampersand: its text and how many characters it took. -/
def readReference (text : List Char) : Option (List Char × Nat) :=
  match text with
  | '#' :: rest =>
    let (base, marks, digits) := match rest with
      | 'x' :: hex => (16, 2, hex.takeWhile isHexDigit)
      | 'X' :: hex => (16, 2, hex.takeWhile isHexDigit)
      | _ => (10, 1, rest.takeWhile isAsciiDigit)
    if digits.isEmpty then none
    else
      let size := marks + digits.length
      let ended := if (text.drop size).head? == some ';' then size + 1 else size
      some (attributeCharacters (numeral base digits), ended)
  | _ =>
    let run := (text.takeWhile isReferenceCharacter).take 32
    if run.isEmpty then none
    else
      let ended := (text.drop run.length).head? == some ';'
      let name := if ended then run ++ [';'] else run
      match namedReference? name with
      | some resolved => some (resolved, name.length)
      | none =>
        match longestName name (name.length - 1) with
        | some (resolved, others) => some (resolved ++ others, name.length)
        | none => some ('&' :: name, name.length)

/-- Resolves the references of an attribute value, passing over `skip` characters first. -/
def resolveFrom : (skip : Nat) → List Char → List Char
  | _, [] => []
  | skip + 1, _ :: rest => resolveFrom skip rest
  | 0, c :: rest =>
    if c == '&' then
      match readReference rest with
      | some (resolved, size) => resolved ++ resolveFrom size rest
      | none => c :: resolveFrom 0 rest
    else c :: resolveFrom 0 rest

/-- Resolves the references of an attribute value. -/
def resolve (value : List Char) : List Char := resolveFrom 0 value

end MessageCatalog.Markup
