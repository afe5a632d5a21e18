import MessageCatalog.Pattern.Basic

/-!
# MessageCatalog.Pattern.Match -- finding a pattern in a text

Matching tries the possibilities in the order that the pattern gives and takes the first that lets
everything after it match too. What comes after is a function, so that matching follows the shape of
the pattern; only a repetition needs a bound of its own, which the text that is left provides.
-/

namespace MessageCatalog.Pattern

open MessageCatalog.Text

/-- A place in a text and what the groups have matched before it. -/
structure Place where
  /-- The characters before the place, the nearest first. -/
  before : List Char
  ahead : List Char
  groups : List (Nat × List Char)
  deriving DecidableEq, Repr

namespace Place

/-- The place after the next character, if there is one and it is in a set. -/
def step? (p : Place) (set : CharSet) : Option Place :=
  match p.ahead with
  | [] => none
  | c :: rest =>
    if set.contains c then some { p with before := c :: p.before, ahead := rest } else none

/-- The text between an earlier place and this one. -/
def since (p start : Place) : List Char := start.ahead.take (start.ahead.length - p.ahead.length)

/-- The place after a text that has to follow. -/
def follow? (p : Place) (ignoreCase : Bool) : List Char → Option Place
  | [] => some p
  | c :: rest =>
    match p.step? (.single c ignoreCase) with
    | some next => next.follow? ignoreCase rest
    | none => none

/-- The place some characters earlier. -/
def back? (p : Place) : Nat → Option Place
  | 0 => some p
  | n + 1 =>
    match p.before with
    | [] => none
    | c :: rest => { p with before := rest, ahead := c :: p.ahead }.back? n

end Place

/-- Whether a condition holds at a place. An empty text has no edge of a word, and no place that is
none. -/
def Boundary.holds (b : Boundary) (p : Place) : Bool :=
  match b with
  | .textStart => p.before.isEmpty
  | .textEnd => p.ahead.isEmpty
  | .lastLineEnd => p.ahead.isEmpty || p.ahead == ['\n']
  | .lineStart => p.before.isEmpty || p.before.head? == some '\n'
  | .lineEnd => p.ahead.isEmpty || p.ahead.head? == some '\n'
  | .wordEdge negated ascii =>
    let inWord (c : Option Char) : Bool := c.any fun c => CharClass.word.contains ascii c
    let isEmptyText := p.before.isEmpty && p.ahead.isEmpty
    !isEmptyText && (inWord p.before.head? != inWord p.ahead.head?) != negated

/-- Matches a body again and again. After `least` times, going on and stopping are both possible and
the greed says which is tried first. Going on is not possible where nothing has been read since it
was last chosen; `since` is the number of characters that were left then. `fuel` bounds the number
of repetitions. -/
def repeatBody (body : Place → (Place → Option Place) → Option Place) (longest : Bool) :
    (fuel least : Nat) → (most since : Option Nat) → Place → (Place → Option Place) → Option Place
  | 0, _, _, _, p, k => k p
  | fuel + 1, least, most, since, p, k =>
    if 0 < least then
      body p fun q => repeatBody body longest fuel (least - 1) (most.map (· - 1)) since q k
    else if most == some 0 || since == some p.ahead.length then k p
    else
      let again : Option Place :=
        body p fun q =>
          repeatBody body longest fuel 0 (most.map (· - 1)) (some p.ahead.length) q k
      if longest then again.or (k p) else (k p).or again

/-- Matches a body as often as it can, and never reconsiders how one of the repetitions was
matched. -/
def repeatCommitted (body : Place → Option Place) :
    (fuel least : Nat) → (most since : Option Nat) → Place → Option Place
  | 0, _, _, _, p => some p
  | fuel + 1, least, most, since, p =>
    if 0 < least then
      (body p).bind (repeatCommitted body fuel (least - 1) (most.map (· - 1)) since)
    else if most == some 0 || since == some p.ahead.length then some p
    else
      match body p with
      | some q => repeatCommitted body fuel 0 (most.map (· - 1)) (some p.ahead.length) q
      | none => some p

/-- Matches a pattern at a place, and then what comes after it. -/
def run : Pattern → Place → (Place → Option Place) → Option Place
  | .empty, p, k => k p
  | .one set, p, k => (p.step? set).bind k
  | .boundary b, p, k => if b.holds p then k p else none
  | .both a b, p, k => a.run p fun q => b.run q k
  | .either a b, p, k => (a.run p k).or (b.run p k)
  | .repeated body least most greed, p, k =>
    let fuel := least + p.ahead.length + 2
    match greed with
    | .longest => repeatBody body.run true fuel least most none p k
    | .shortest => repeatBody body.run false fuel least most none p k
    | .committed => (repeatCommitted (body.run · some) fuel least most none p).bind k
  | .capture index body, p, k =>
    body.run p fun q => k { q with groups := (index, q.since p) :: q.groups }
  | .ahead body negated, p, k =>
    match body.run p some with
    | some q => if negated then none else k { p with groups := q.groups }
    | none => if negated then k p else none
  | .behind body width negated, p, k =>
    match (p.back? width).bind fun start => body.run start some with
    | some q => if negated then none else k { p with groups := q.groups }
    | none => if negated then k p else none
  | .atomic body, p, k => (body.run p some).bind k
  | .sameAs index ignoreCase, p, k =>
    match p.groups.lookup index with
    | some text => (p.follow? ignoreCase text).bind k
    | none => none
  | .conditional index yes no, p, k =>
    if (p.groups.lookup index).isSome then yes.run p k else no.run p k

/-- Finds the leftmost match, from a place on: the text that it covers. -/
def searchFrom (pattern : Pattern) (before : List Char) : List Char → Option (List Char)
  | [] => (pattern.run ⟨before, [], []⟩ some).map fun q => q.since ⟨before, [], []⟩
  | c :: rest =>
    match pattern.run ⟨before, c :: rest, []⟩ some with
    | some q => some (q.since ⟨before, c :: rest, []⟩)
    | none => pattern.searchFrom (c :: before) rest

/-- Finds the leftmost match in a text. -/
def search (pattern : Pattern) (text : List Char) : Option (List Char) :=
  pattern.searchFrom [] text

/-- Whether a pattern matches somewhere in a text. -/
def occursIn (pattern : Pattern) (text : List Char) : Bool := (pattern.search text).isSome

end MessageCatalog.Pattern
