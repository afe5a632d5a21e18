import MessageCatalog.Pattern.Basic
import MessageCatalog.Text.Search

/-!
# MessageCatalog.Pattern.Reader -- the text of a pattern

The notation is the usual one of search patterns: sets in square brackets, groups in parentheses,
the repetitions `*`, `+`, `?` and braces with their short and committed forms, look-around,
references to groups and settings at the start. A text that is not a pattern gives `none`.
-/

namespace MessageCatalog.Pattern

open MessageCatalog.Text

/-! ## Settings and state -/

/-- The settings under which a part of a pattern is read. -/
structure Settings where
  ignoreCase : Bool := false
  lines : Bool := false
  anyIncludesLineFeed : Bool := false
  ascii : Bool := false
  spaced : Bool := false
  deriving DecidableEq, Repr, Inhabited

/-- What has been read so far: the text that is left and the groups. -/
structure ReadState where
  rest : List Char
  /-- How many groups have been opened. -/
  opened : Nat
  /-- The groups that are complete. -/
  closed : List Nat
  names : List (List Char × Nat)
  /-- The highest group that a condition names before it exists. -/
  awaited : Nat
  deriving Repr

/-- Goes on with another text. -/
def ReadState.at (s : ReadState) (rest : List Char) : ReadState := { s with rest := rest }

/-- The characters of settings and what each turns on. -/
def Settings.turn (on : Bool) (s : Settings) : Char → Option Settings
  | 'i' => some { s with ignoreCase := on }
  | 'm' => some { s with lines := on }
  | 's' => some { s with anyIncludesLineFeed := on }
  | 'x' => some { s with spaced := on }
  | 'a' => if on then some { s with ascii := true } else none
  | 'u' => if on then some { s with ascii := false } else none
  | _ => none

/-- Turns several settings on or off. -/
def Settings.turnAll (on : Bool) (s : Settings) (marks : List Char) : Option Settings :=
  marks.foldlM (fun s c => s.turn on c) s

/-! ## Escapes -/

/-- What an escape stands for. -/
inductive Escape where
  | char (c : Char)
  | set (kind : CharClass) (negated : Bool)
  | boundary (b : Boundary)
  | group (index : Nat)
  deriving Repr

/-- The characters whose escapes are controls. -/
def controlEscape? : Char → Option Char
  | 'a' => some '\x07'
  | 'f' => some '\x0c'
  | 'n' => some '\n'
  | 'r' => some '\r'
  | 't' => some '\t'
  | 'v' => some '\x0b'
  | '\\' => some '\\'
  | _ => none

/-- The classes by the letters of their escapes. -/
def classEscape? : Char → Option (CharClass × Bool)
  | 'd' => some (.digit, false)
  | 'D' => some (.digit, true)
  | 's' => some (.space, false)
  | 'S' => some (.space, true)
  | 'w' => some (.word, false)
  | 'W' => some (.word, true)
  | _ => none

/-- A character given by exactly `count` hexadecimal digits. -/
def readHexEscape (count : Nat) (text : List Char) : Option (Char × List Char) :=
  let digits := text.take count
  if digits.length == count && digits.all isHexDigit then
    let code := numeral 16 digits
    if 0x10ffff < code then none else some (Char.ofNat code, text.drop count)
  else none

/-- An escape that means the same inside and outside a set. -/
def readCommonEscape (c : Char) (rest : List Char) : Option (Escape × List Char) :=
  match controlEscape? c with
  | some e => some (.char e, rest)
  | none =>
    match classEscape? c with
    | some (kind, negated) => some (.set kind negated, rest)
    | none =>
      if c == 'x' then (readHexEscape 2 rest).map fun (e, rest) => (.char e, rest)
      else if c == 'u' then (readHexEscape 4 rest).map fun (e, rest) => (.char e, rest)
      else if c == 'U' then (readHexEscape 8 rest).map fun (e, rest) => (.char e, rest)
      else if isAsciiAlphanumeric c then none
      else some (.char c, rest)

/-- An escape inside a set, after its backslash. -/
def readSetEscape (text : List Char) : Option (Escape × List Char) :=
  match text with
  | [] => none
  | c :: rest =>
    if c == 'b' then some (.char '\x08', rest)
    else if isOctalDigit c then
      let digits := c :: (rest.take 2).takeWhile isOctalDigit
      let code := numeral 8 digits
      if 0o377 < code then none else some (.char (Char.ofNat code), text.drop digits.length)
    else readCommonEscape c rest

/-- An escape outside sets, after its backslash. -/
def readEscape (ascii : Bool) (text : List Char) : Option (Escape × List Char) :=
  match text with
  | [] => none
  | c :: rest =>
    if c == 'A' then some (.boundary .textStart, rest)
    else if c == 'Z' then some (.boundary .textEnd, rest)
    else if c == 'b' then some (.boundary (.wordEdge false ascii), rest)
    else if c == 'B' then some (.boundary (.wordEdge true ascii), rest)
    else if c == '0' then
      let digits := c :: (rest.take 2).takeWhile isOctalDigit
      some (.char (Char.ofNat (numeral 8 digits)), text.drop digits.length)
    else if isAsciiDigit c then
      match rest with
      | d :: e :: others =>
        if isOctalDigit c && isOctalDigit d && isOctalDigit e then
          let code := numeral 8 [c, d, e]
          if 0o377 < code then none else some (.char (Char.ofNat code), others)
        else if isAsciiDigit d then some (.group (numeral 10 [c, d]), e :: others)
        else some (.group (numeral 10 [c]), rest)
      | [d] =>
        if isAsciiDigit d then some (.group (numeral 10 [c, d]), [])
        else some (.group (numeral 10 [c]), rest)
      | [] => some (.group (numeral 10 [c]), [])
    else readCommonEscape c rest

/-! ## Sets -/

/-- Reads one end of a range or a class inside a set. -/
def readSetMember (ascii : Bool) (text : List Char) : Option (SetItem × List Char) :=
  match text with
  | [] => none
  | '\\' :: rest =>
    match readSetEscape rest with
    | some (.char c, rest) => some (.range c c, rest)
    | some (.set kind negated, rest) => some (.ofClass kind negated ascii, rest)
    | _ => none
  | c :: rest => some (.range c c, rest)

/-- The range between two members, if both are characters and in order. -/
def joinRange : SetItem → SetItem → Option SetItem
  | .range first _, .range last _ => if last < first then none else some (.range first last)
  | _, _ => none

/-- Reads the items of a set up to its closing bracket, which cannot be the first item. -/
def readSetItems (ascii : Bool) : (fuel : Nat) → (isFirst : Bool) → List Char →
    Option (List SetItem × List Char)
  | 0, _, _ => none
  | fuel + 1, isFirst, text =>
    if !isFirst && text.head? == some ']' then some ([], text.drop 1)
    else
      match readSetMember ascii text with
      | none => none
      | some (item, '-' :: ']' :: rest) => some ([item, .range '-' '-'], rest)
      | some (item, '-' :: rest) =>
        match readSetMember ascii rest with
        | none => none
        | some (last, rest) =>
          match joinRange item last, readSetItems ascii fuel false rest with
          | some range, some (items, rest) => some (range :: items, rest)
          | _, _ => none
      | some (item, rest) =>
        (readSetItems ascii fuel false rest).map fun (items, rest) => (item :: items, rest)

/-- Reads a set after its opening bracket. -/
def readSet (settings : Settings) (text : List Char) : Option (CharSet × List Char) :=
  let (negated, inside) := match text with
    | '^' :: rest => (true, rest)
    | _ => (false, text)
  (readSetItems settings.ascii inside.length true inside).map fun (items, rest) =>
    (⟨items, negated, settings.ignoreCase⟩, rest)

/-! ## Repetitions -/

/-- Reads the bounds of a repetition: `none` where the text is not one. A brace that does not
enclose bounds is a character. -/
def readBounds (text : List Char) : Option (Nat × Option Nat × List Char) :=
  match text with
  | '*' :: rest => some (0, none, rest)
  | '+' :: rest => some (1, none, rest)
  | '?' :: rest => some (0, some 1, rest)
  | '\x7b' :: rest =>
    let low := rest.takeWhile isAsciiDigit
    let least := numeral 10 low
    match rest.dropWhile isAsciiDigit with
    | '\x7d' :: rest => if low.isEmpty then none else some (least, some least, rest)
    | ',' :: rest =>
      let high := rest.takeWhile isAsciiDigit
      match rest.dropWhile isAsciiDigit with
      | '\x7d' :: rest =>
        some (least, if high.isEmpty then none else some (numeral 10 high), rest)
      | _ => none
    | _ => none
  | _ => none

/-- Reads the mark after the bounds of a repetition. -/
def readGreed (text : List Char) : Greed × List Char :=
  match text with
  | '?' :: rest => (.shortest, rest)
  | '+' :: rest => (.committed, rest)
  | _ => (.longest, text)

/-! ## Names -/

/-- Reads a name up to a terminator. -/
def readName (terminator : Char) (text : List Char) : Option (List Char × List Char) :=
  let name := text.takeWhile (· != terminator)
  match text.dropWhile (· != terminator) with
  | [] => none
  | _ :: rest => if name.isEmpty then none else some (name, rest)

/-- Whether a text may name a group. -/
def isGroupName (name : List Char) : Bool :=
  match name with
  | [] => false
  | c :: _ => !isDecimalDigit c && name.all isWord

/-! ## Parts -/

/-- A part of a sequence, and whether a repetition may follow it. -/
inductive Part where
  | plain (p : Pattern)
  | boundary (p : Pattern)
  | repetition (p : Pattern)
  /-- A comment or a space that is skipped: a repetition belongs to the part before it. -/
  | nothing
  deriving Repr

/-- The pattern of a part. -/
def Part.pattern : Part → Pattern
  | .plain p => p
  | .boundary p => p
  | .repetition p => p
  | .nothing => .empty

/-- Parts one after the other; the last one comes first in the list. -/
def sequence (parts : List Part) : Pattern :=
  match parts.reverse.map Part.pattern with
  | [] => .empty
  | first :: others => others.foldl Pattern.both first

/-- Puts a repetition around the last part. -/
def repeatLast (parts : List Part) (least : Nat) (most : Option Nat) (greed : Greed) :
    Option (List Part) :=
  match parts with
  | .plain p :: others =>
    if most.any fun n => n < least then none
    else some (.repetition (.repeated p least most greed) :: others)
  | _ => none

/-- Adds a part. -/
def addPart (parts : List Part) : Part → List Part
  | .nothing => parts
  | part => part :: parts

mutual
/-- Reads alternatives up to a closing parenthesis or the end. -/
def readAlternatives (settings : Settings) : (fuel : Nat) → ReadState → Option (Pattern × ReadState)
  | 0, _ => none
  | fuel + 1, s =>
    match readSequence settings fuel [] s with
    | none => none
    | some (first, s) =>
      match s.rest with
      | '|' :: rest =>
        (readAlternatives settings fuel (s.at rest)).map fun (others, s) =>
          (.either first others, s)
      | _ => some (first, s)

/-- Reads a sequence of parts up to a bar, a closing parenthesis or the end. -/
def readSequence (settings : Settings) : (fuel : Nat) → List Part → ReadState →
    Option (Pattern × ReadState)
  | 0, _, _ => none
  | fuel + 1, parts, s =>
    match s.rest with
    | [] => some (sequence parts, s)
    | c :: rest =>
      if c == '|' || c == ')' then some (sequence parts, s)
      else if settings.spaced && isBlank c then readSequence settings fuel parts (s.at rest)
      else if settings.spaced && c == '#' then
        readSequence settings fuel parts (s.at ((rest.dropWhile (· != '\n')).drop 1))
      else
        match readBounds (c :: rest) with
        | some (least, most, rest) =>
          let (greed, rest) := readGreed rest
          match repeatLast parts least most greed with
          | some parts => readSequence settings fuel parts (s.at rest)
          | none => none
        | none =>
          match readPart settings fuel c (s.at rest) with
          | some (part, s) => readSequence settings fuel (addPart parts part) s
          | none => none

/-- Reads one part from its first character. -/
def readPart (settings : Settings) : (fuel : Nat) → Char → ReadState → Option (Part × ReadState)
  | 0, _, _ => none
  | fuel + 1, c, s =>
    if c == '\\' then
      match readEscape settings.ascii s.rest with
      | some (.char e, rest) => some (.plain (.one (.single e settings.ignoreCase)), s.at rest)
      | some (.set kind negated, rest) =>
        some (.plain (.one ⟨[.ofClass kind negated settings.ascii], false, false⟩), s.at rest)
      | some (.boundary b, rest) => some (.boundary (.boundary b), s.at rest)
      | some (.group index, rest) =>
        if s.closed.contains index then
          some (.plain (.sameAs index settings.ignoreCase), s.at rest)
        else none
      | none => none
    else if c == '[' then
      (readSet settings s.rest).map fun (set, rest) => (.plain (.one set), s.at rest)
    else if c == '.' then
      some (.plain (.one (if settings.anyIncludesLineFeed then .all else .notLineFeed)), s)
    else if c == '^' then
      some (.boundary (.boundary (if settings.lines then .lineStart else .textStart)), s)
    else if c == '$' then
      some (.boundary (.boundary (if settings.lines then .lineEnd else .lastLineEnd)), s)
    else if c == '(' then readGroup settings fuel s
    else some (.plain (.one (.single c settings.ignoreCase)), s)

/-- Reads alternatives and the parenthesis that closes them. -/
def readEnclosed (settings : Settings) : (fuel : Nat) → ReadState → Option (Pattern × ReadState)
  | 0, _ => none
  | fuel + 1, s =>
    match readAlternatives settings fuel s with
    | some (body, s) =>
      match s.rest with
      | ')' :: rest => some (body, s.at rest)
      | _ => none
    | none => none

/-- Reads a group that captures, under a name if it has one. -/
def readCapture (settings : Settings) : (fuel : Nat) → Option (List Char) → ReadState →
    Option (Part × ReadState)
  | 0, _, _ => none
  | fuel + 1, name, s =>
    let index := s.opened + 1
    let names := match name with
      | some n => (n, index) :: s.names
      | none => s.names
    if name.any fun n => (s.names.lookup n).isSome then none
    else
      (readEnclosed settings fuel { s with opened := index, names := names }).map fun (body, s) =>
        (.plain (.capture index body), { s with closed := index :: s.closed })

/-- Reads what follows an opening parenthesis. -/
def readGroup (settings : Settings) : (fuel : Nat) → ReadState → Option (Part × ReadState)
  | 0, _ => none
  | fuel + 1, s =>
    match s.rest with
    | '?' :: ':' :: rest =>
      (readEnclosed settings fuel (s.at rest)).map fun (body, s) => (.plain body, s)
    | '?' :: '>' :: rest =>
      (readEnclosed settings fuel (s.at rest)).map fun (body, s) => (.plain (.atomic body), s)
    | '?' :: '=' :: rest =>
      (readEnclosed settings fuel (s.at rest)).map fun (body, s) => (.plain (.ahead body false), s)
    | '?' :: '!' :: rest =>
      (readEnclosed settings fuel (s.at rest)).map fun (body, s) => (.plain (.ahead body true), s)
    | '?' :: '<' :: mark :: rest =>
      if mark == '=' || mark == '!' then
        match readEnclosed settings fuel (s.at rest) with
        | none => none
        | some (body, s) =>
          let (least, most) := body.width
          if most == some least then some (.plain (.behind body least (mark == '!')), s) else none
      else none
    | '?' :: 'P' :: '<' :: rest =>
      match readName '>' rest with
      | some (name, rest) =>
        if isGroupName name then readCapture settings fuel (some name) (s.at rest) else none
      | none => none
    | '?' :: 'P' :: '=' :: rest =>
      match readName ')' rest with
      | none => none
      | some (name, rest) =>
        match s.names.lookup name with
        | none => none
        | some index =>
          if s.closed.contains index then
            some (.plain (.sameAs index settings.ignoreCase), s.at rest)
          else none
    | '?' :: '#' :: rest =>
      match rest.dropWhile (· != ')') with
      | [] => none
      | _ :: rest => some (.nothing, s.at rest)
    | '?' :: '(' :: rest => readCondition settings fuel (s.at rest)
    | '?' :: rest => readScoped settings fuel (s.at rest)
    | _ => readCapture settings fuel none s

/-- Reads a condition on a group after its two parentheses. -/
def readCondition (settings : Settings) : (fuel : Nat) → ReadState → Option (Part × ReadState)
  | 0, _ => none
  | fuel + 1, s =>
    match readName ')' s.rest with
    | none => none
    | some (name, rest) =>
      let index? :=
        if isGroupName name then s.names.lookup name
        else if name.all isAsciiDigit && numeral 10 name != 0 then some (numeral 10 name)
        else none
      match index? with
      | none => none
      | some index =>
        let start := { s with rest := rest, awaited := max s.awaited index }
        match readSequence settings fuel [] start with
        | none => none
        | some (yes, s) =>
          match s.rest with
          | ')' :: rest => some (.plain (.conditional index yes .empty), s.at rest)
          | '|' :: rest =>
            match readSequence settings fuel [] (s.at rest) with
            | none => none
            | some (no, s) =>
              match s.rest with
              | ')' :: rest => some (.plain (.conditional index yes no), s.at rest)
              | _ => none
          | _ => none

/-- Reads settings that hold inside a group, and the group. -/
def readScoped (settings : Settings) : (fuel : Nat) → ReadState → Option (Part × ReadState)
  | 0, _ => none
  | fuel + 1, s =>
    let turnedOn := s.rest.takeWhile isAsciiLetter
    let rest := s.rest.dropWhile isAsciiLetter
    let (turnedOff, ended) := match rest with
      | '-' :: off => (off.takeWhile isAsciiLetter, off.dropWhile isAsciiLetter)
      | _ => ([], rest)
    let complete := match rest with
      | '-' :: _ => !turnedOff.isEmpty
      | _ => !turnedOn.isEmpty
    if complete && !(turnedOn.any fun c => turnedOff.contains c) &&
        !(turnedOn.contains 'a' && turnedOn.contains 'u') then
      match settings.turnAll true turnedOn with
      | none => none
      | some on =>
        match on.turnAll false turnedOff, ended with
        | some inner, ':' :: rest =>
          (readEnclosed inner fuel (s.at rest)).map fun (body, s) => (.plain body, s)
        | _, _ => none
    else none
end

/-! ## Whole patterns -/

/-- Reads the settings in parentheses at the start of a pattern, if there are any. -/
def readLeading (settings : Settings) (text : List Char) : Option (Settings × List Char) :=
  match text with
  | '(' :: '?' :: rest =>
    let marks := rest.takeWhile isAsciiLetter
    match rest.dropWhile isAsciiLetter with
    | ')' :: rest =>
      if marks.isEmpty || (marks.contains 'a' && marks.contains 'u') then none
      else (settings.turnAll true marks).map fun on => (on, rest)
    | _ => none
  | _ => none

/-- Reads all settings at the start of a pattern. -/
def readAllLeading : (fuel : Nat) → Settings → List Char → Settings × List Char
  | 0, settings, text => (settings, text)
  | fuel + 1, settings, text =>
    match readLeading settings text with
    | some (on, rest) => readAllLeading fuel on rest
    | none => (settings, text)

/-- Reads a pattern. -/
def ofText? (text : List Char) : Option Pattern :=
  let (settings, rest) := readAllLeading text.length {} text
  match readAlternatives settings (8 * text.length + 8) ⟨rest, 0, [], [], 0⟩ with
  | some (pattern, s) => if s.rest.isEmpty && s.awaited ≤ s.opened then some pattern else none
  | none => none

end MessageCatalog.Pattern
