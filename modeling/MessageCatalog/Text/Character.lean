import MessageCatalog.Text.WordTable
import MessageCatalog.Text.PrintTable
import MessageCatalog.Text.CaseTable

/-!
# MessageCatalog.Text.Character -- classes of characters

Text is classified over the whole of Unicode: a blank is any white space a reader would see, a word
character is a letter, a number or the underscore, whatever its script. ASCII is decided by
comparison alone; everything above it is looked up in ascending tables of code point ranges.
-/

namespace MessageCatalog.Text

/-! ## Range tables -/

/-- Binary search for the range that holds `n` among the entries from `lo` up to, not including,
`hi`. -/
def searchRanges (ranges : Array (Nat × Nat)) (n lo hi : Nat) : Bool :=
  if lo < hi then
    match ranges[(lo + hi) / 2]? with
    | none => false
    | some (first, last) =>
      if n < first then searchRanges ranges n lo ((lo + hi) / 2)
      else if last < n then searchRanges ranges n ((lo + hi) / 2 + 1) hi
      else true
  else false
termination_by hi - lo

/-- Whether some range of an ascending table holds `n`. -/
def inRanges (ranges : Array (Nat × Nat)) (n : Nat) : Bool :=
  searchRanges ranges n 0 ranges.size

/-! ## Classes -/

/-- White space of any kind: the ASCII controls from tab to carriage return, the information
separators, the space, and the space and line separators of the other blocks. -/
def isBlank (c : Char) : Bool :=
  let n := c.toNat
  (0x09 ≤ n && n ≤ 0x0d) || (0x1c ≤ n && n ≤ 0x20) || n == 0x85 || n == 0xa0 || n == 0x1680 ||
    (0x2000 ≤ n && n ≤ 0x200a) || n == 0x2028 || n == 0x2029 || n == 0x202f || n == 0x205f ||
    n == 0x3000

/-- An ASCII letter of either case. -/
def isAsciiLetter (c : Char) : Bool :=
  ('a' ≤ c && c ≤ 'z') || ('A' ≤ c && c ≤ 'Z')

/-- One of the ten ASCII digits. -/
def isAsciiDigit (c : Char) : Bool := '0' ≤ c && c ≤ '9'

/-- An ASCII letter or digit. -/
def isAsciiAlphanumeric (c : Char) : Bool := isAsciiLetter c || isAsciiDigit c

/-- A hexadecimal digit of either case. -/
def isHexDigit (c : Char) : Bool :=
  isAsciiDigit c || ('a' ≤ c && c ≤ 'f') || ('A' ≤ c && c ≤ 'F')

/-- An octal digit. -/
def isOctalDigit (c : Char) : Bool := '0' ≤ c && c ≤ '7'

/-- A decimal digit of any script. -/
def isDecimalDigit (c : Char) : Bool :=
  isAsciiDigit c || (0x80 ≤ c.toNat && inRanges decimalDigitRanges c.toNat)

/-- A letter, a numeric character or the underscore. -/
def isWord (c : Char) : Bool :=
  isAsciiAlphanumeric c || c == '_' || (0x80 ≤ c.toNat && inRanges alphanumericRanges c.toNat)

/-- A character that a quoted display shows as itself. -/
def isPrintable (c : Char) : Bool :=
  if c.toNat < 0x80 then 0x20 ≤ c.toNat && c.toNat ≠ 0x7f
  else !inRanges unprintableRanges c.toNat

/-! ## Case -/

/-- The run of capital letters that holds `n`, if `n` is a capital letter with a small form of one
character. -/
def caseRunOf (n : Nat) : Option CaseRun :=
  caseRuns.find? fun run => run.first ≤ n && n ≤ run.last && (n - run.first) % run.step == 0

/-- The small form of a character: of a letter that has none, the character itself. -/
def smallLetter (c : Char) : Char :=
  if c.toNat < 0x80 then c.toLower
  else match caseRunOf c.toNat with
    | some run => Char.ofNat (Int.toNat (c.toNat + run.shift))
    | none => c

/-- Whether a letter with a case comes first in a text, behind nothing but marks. -/
def startsCased (text : List Char) : Bool :=
  let letters := text.dropWhile fun c => inRanges caseIgnorableRanges c.toNat
  letters.head?.any fun c => inRanges casedRanges c.toNat

/-- The small form of a character between the characters before it, the nearest first, and those
behind it. The dotted capital I is the one letter whose small form is two characters, and the
capital sigma has a form of its own at the end of a word. -/
def smallForm (before : List Char) (c : Char) (behind : List Char) : List Char :=
  if c == '\u0130' then ['i', '\u0307']
  else if c == '\u03a3' then
    if startsCased before && !startsCased behind then ['\u03c2'] else ['\u03c3']
  else [smallLetter c]

/-- A text in small letters, behind some characters, the nearest first. -/
def lowercaseBehind (before : List Char) : List Char → List Char
  | [] => []
  | c :: rest => smallForm before c rest ++ lowercaseBehind (c :: before) rest

/-- A text in small letters. -/
def lowercase (text : List Char) : List Char := lowercaseBehind [] text

/-- Whether two characters are the same letter up to case. The long s, the dotless i and the Kelvin
sign count as the letters that they are variants of. -/
def sameLetter (a b : Char) : Bool :=
  fold a == fold b
where
  /-- The representative of the characters that count as one letter. -/
  fold (c : Char) : Char :=
    if c == '\u017f' then 's' else if c == '\u0131' || c == '\u0130' then 'i' else smallLetter c

/-! ## Values of digits -/

/-- The value of a hexadecimal digit, zero for any other character. -/
def hexValue (c : Char) : Nat :=
  if isAsciiDigit c then c.toNat - '0'.toNat
  else if 'a' ≤ c && c ≤ 'f' then c.toNat - 'a'.toNat + 10
  else if 'A' ≤ c && c ≤ 'F' then c.toNat - 'A'.toNat + 10
  else 0

/-- The number that digits of a base write, most significant first. -/
def numeral (base : Nat) (digits : List Char) : Nat :=
  digits.foldl (fun n c => n * base + hexValue c) 0

/-- The small letters of hexadecimal. -/
def hexDigit (n : Nat) : Char :=
  if n < 10 then Char.ofNat ('0'.toNat + n) else Char.ofNat ('a'.toNat + (n - 10))

/-- The last `width` hexadecimal digits of a number, in small letters and with leading zeros. -/
def hexNumeral : (width : Nat) → Nat → List Char
  | 0, _ => []
  | width + 1, n => hexNumeral width (n / 16) ++ [hexDigit (n % 16)]

/-! ## Runs of digits

Digits may be grouped by underscores. An underscore stands between two digits, never alone at an end
and never beside another. -/

/-- The length of the digits behind the first, with single underscores between digits. -/
def moreDigits (isDigit : Char → Bool) : List Char → Nat
  | '_' :: d :: cs => if isDigit d then 2 + moreDigits isDigit cs else 0
  | d :: cs => if isDigit d then 1 + moreDigits isDigit cs else 0
  | [] => 0

/-- The length of a run of digits at the start of a text. -/
def digitRun (isDigit : Char → Bool) (text : List Char) : Nat :=
  if (text.head?.map isDigit).getD false then moreDigits isDigit text else 0

/-- The number that a run of digits writes. -/
def groupedNumeral (base : Nat) (digits : List Char) : Nat :=
  numeral base (digits.filter (· != '_'))

end MessageCatalog.Text
