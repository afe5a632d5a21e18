import MessageCatalog.Message.Walk
import MessageCatalog.Proofs.Message.Exact
import MessageCatalog.Proofs.Text.Cursor

/-!
# MessageCatalog.Proofs.Message.Walk -- the cursor follows the parser

Every rule over a cursor follows the rule of the parser for the characters that the cursor faces.
-/

namespace MessageCatalog.Message

open MessageCatalog.Text MessageCatalog.Text.Cursor

variable {context : Context} {source text rest : List Char} {α β : Type}

/-- How a walk over a text stops at a fault that was found in an end of the text. -/
def Fault.stop (source : List Char) (fault : Fault) : Stop ParseError :=
  .fault ⟨fault.cause, Position.at source (source.length - fault.left)⟩

theorem follows_fault {belong : α → β → Prop} (cause : Cause) (source rest : List Char) :
    Follows (Fault.stop source) belong (.error (Fault.at cause rest))
      (faultAt cause (facing source rest)) := by
  rw [faultAt, position_facing]
  exact .fault (Fault.at cause rest)

/-! ## Tokens -/

theorem skipBlanks_length_le (text : List Char) : (skipBlanks text).length ≤ text.length :=
  (blanks_skipBlanks text).length_le

theorem readWord_length_lt {kind : WordKind} {word : String}
    (read : readWord kind text = .ok (word, rest)) :
    (skipBlanks rest).length < text.length :=
  (skipBlanks_length_le rest).trans_lt (readWord_iff.mp read).length_lt

theorem expect_length_lt {char : Char} (read : expect char text = .ok rest) :
    rest.length < text.length := by
  rw [expect_iff.mp read]
  exact Nat.lt_succ_self _

theorem blanks_facing (inside : text <:+ source) :
    (facing source text).skipBlanks = facing source (skipBlanks text) := skipBlanks_facing inside

theorem blanks_inside (inside : text <:+ source) : skipBlanks text <:+ source :=
  suffix_dropWhile inside isBlank

theorem follows_expect (char : Char) (inside : text <:+ source) :
    Follows (Fault.stop source) (Faces source) (expect char text)
      (expectAt char (facing source text)) := by
  rw [expectAt, atEnd_facing inside]
  cases text with
  | nil => exact follows_fault _ source []
  | cons d rest =>
      rw [look_facing inside, advance_facing_cons inside, expect]
      show Follows _ _ _ (if (d != char) = true then _ else _)
      by_cases same : (d == char) = true
      · rw [if_pos same, if_neg (by simpa using same)]
        exact .ok ⟨rfl, (List.suffix_cons d rest).trans inside⟩
      · rw [if_neg same, if_pos (by simpa using same)]
        exact follows_fault _ source (d :: rest)

theorem follows_readWord (kind : WordKind) (inside : text <:+ source) :
    Follows (Fault.stop source) (Reaches source id) (readWord kind text)
      (wordAt kind (facing source text)) := by
  have inside' := suffix_dropWhile inside isWordCharacter
  rw [wordAt, passWhile_facing inside, Walk.ok_bind, offset_dropWhile inside, readWord]
  split
  · rw [atEnd_facing inside']
    generalize text.dropWhile isWordCharacter = rest at *
    cases rest with
    | nil => exact follows_fault _ source []
    | cons d rest =>
        rw [look_facing inside']
        exact follows_fault _ source (d :: rest)
  · rw [sliceFrom_dropWhile inside]
    exact .ok ⟨rfl, rfl, inside'⟩

/-! ## Text -/

theorem literalAt_cons (start : Cursor) {c : Char} (read : List Char)
    (inside : c :: rest <:+ source) :
    literalAt start (facing source (c :: rest)) read =
      if c == '\'' then
        if rest.head? == some '\'' then
          literalAt start (facing source (rest.drop 1)) (read ++ ['\''])
        else .ok (read, facing source rest)
      else literalAt start (facing source rest) (read ++ [c]) := by
  have more : ¬(facing source (c :: rest)).atEnd = true := by simp [atEnd_facing inside]
  rw [literalAt, dif_neg more, look_facing inside, peek?_facing inside,
    advance_facing_cons inside, advance_facing inside, List.getElem?_cons_succ,
    ← List.head?_eq_getElem?, List.drop_succ_cons]
  rfl

/-- A literal is walked over to its closing apostrophe, if there is one. -/
theorem literalAt_facing (start : Cursor) (read : List Char) (inside : text <:+ source) :
    literalAt start (facing source text) read = match readLiteral text with
      | none => faultAt .unterminatedLiteral start
      | some (chars, rest) => .ok (read ++ chars, facing source rest) := by
  fun_induction readLiteral text generalizing read with
  | case1 =>
      have done : (facing source []).atEnd = true := atEnd_facing inside
      rw [literalAt, dif_pos done]
  | case2 text ih =>
      have inside' : text <:+ source :=
        ((List.suffix_cons _ _).trans (List.suffix_cons _ _)).trans inside
      rw [literalAt_cons start read inside]
      show literalAt start (facing source text) (read ++ ['\'']) = _
      rw [ih _ inside']
      cases readLiteral text with
      | none => rfl
      | some found => simp
  | case3 text single =>
      have last : ¬(text.head? == some '\'') = true := by
        intro double
        obtain ⟨tail, rfl⟩ := List.head?_eq_some_iff.mp (beq_iff_eq.mp double)
        exact single tail rfl
      rw [literalAt_cons start read inside, if_pos (beq_self_eq_true _), if_neg last]
      simp
  | case4 c text other plain ih =>
      rw [literalAt_cons start read inside, if_neg (by simpa using plain),
        ih _ ((List.suffix_cons _ _).trans inside)]
      cases readLiteral text with
      | none => rfl
      | some found => simp

theorem quotedAt_facing {c : Char} (inPlural : Bool) (inside : '\'' :: c :: rest <:+ source) :
    quotedAt inPlural (facing source ('\'' :: c :: rest)) =
      if c == '\'' then .ok (['\''], facing source rest)
      else if opensLiteral inPlural c then
        match readLiteral (c :: rest) with
        | none => faultAt .unterminatedLiteral (facing source ('\'' :: c :: rest))
        | some (chars, behind) => .ok (chars, facing source behind)
      else .ok (['\''], facing source (c :: rest)) := by
  have next : (facing source ('\'' :: c :: rest)).peek? 1 = some c := peek?_facing inside 1
  rw [quotedAt, next, advance_facing inside, advance_facing inside]
  show (if _ then _ else if _ then literalAt _ (facing source (c :: rest)) [] else _) = _
  rw [literalAt_facing _ _ ((List.suffix_cons _ _).trans inside)]
  rfl

/-- An apostrophe behind the last one is text. -/
theorem quotedAt_last (inPlural : Bool) (inside : ['\''] <:+ source) :
    quotedAt inPlural (facing source ['\'']) = .ok (['\''], facing source []) := by
  have next : (facing source ['\'']).peek? 1 = none := peek?_facing inside 1
  rw [quotedAt, next, advance_facing_cons inside]

/-! ## Keys and offsets -/

theorem head?_any_eq (c : Char) (text : List Char) :
    text.head?.any (· == c) = (text.head? == some c) := by
  cases text <;> rfl

theorem any_head?_of_ne {c : Char} (other : ∀ rest, text = c :: rest → False) :
    ¬text.head?.any (· == c) = true := by
  cases text with
  | nil => exact Bool.false_ne_true
  | cons d rest => exact fun same => other rest (by rw [beq_iff_eq.mp same])

theorem sliceAhead_offsetMark (inside : text <:+ source) :
    (facing source text).sliceAhead offsetMark.length = offsetMark ↔
      ∃ rest, after? offsetMark text = some rest := by
  rw [sliceAhead_facing inside, eq_comm, ← List.prefix_iff_eq_take]
  simp only [after?_iff]
  exact exists_congr fun rest => eq_comm

theorem follows_readOffset (inside : text <:+ source) :
    Follows (Fault.stop source) (Reaches source id) (readOffset text)
      (offsetAt (facing source text)) := by
  rw [offsetAt, readOffset]
  split
  · next absent =>
      have other : (facing source text).sliceAhead offsetMark.length ≠ offsetMark := by
        rw [Ne, sliceAhead_offsetMark inside, absent]
        exact nofun
      rw [if_pos (by simpa using other)]
      exact .ok ⟨rfl, rfl, inside⟩
  · next rest present =>
      have mark : ¬((facing source text).sliceAhead offsetMark.length != offsetMark) = true := by
        simpa using (sliceAhead_offsetMark inside).mpr ⟨rest, present⟩
      obtain rfl := after?_iff.mp present
      have behindMark := (List.suffix_append _ _).trans inside
      have start := suffix_dropWhile behindMark isBlank
      have behind := suffix_dropWhile start isAsciiDigit
      rw [if_neg mark, advance_facing inside, List.drop_left, skipBlanks_facing behindMark]
      dsimp only
      rw [passWhile_facing start, Walk.ok_bind, offset_dropWhile start, skipBlanks]
      split
      · next none =>
          -- without a digit nothing was passed
          have all := List.takeWhile_append_dropWhile (p := isAsciiDigit)
            (l := rest.dropWhile isBlank)
          rw [List.isEmpty_iff.mp none, List.nil_append] at all
          rw [all]
          exact follows_fault _ source _
      · rw [sliceFrom_dropWhile start, skipBlanks_facing behind]
        exact .ok ⟨rfl, rfl, suffix_dropWhile behind isBlank⟩

theorem readOffset_length_le {offset : Nat} (read : readOffset text = .ok (offset, rest)) :
    rest.length ≤ text.length := by
  unfold readOffset at read
  split at read
  · cases read
    exact Nat.le_refl _
  · next behind present =>
      obtain rfl := after?_iff.mp present
      dsimp only at read
      split at read
      · cases read
      · cases read
        have h₁ := skipBlanks_length_le ((skipBlanks behind).dropWhile isAsciiDigit)
        have h₂ := (List.dropWhile_suffix isAsciiDigit (l := skipBlanks behind)).length_le
        have h₃ := skipBlanks_length_le behind
        rw [List.length_append]
        omega

theorem styleAt_facing (inside : text <:+ source) :
    styleAt (facing source text) = .ok ((readStyle text).1, facing source (readStyle text).2) := by
  unfold readStyle
  split
  · next rest =>
      have start := (List.suffix_cons _ _).trans inside
      rw [styleAt, sees_facing inside, Walk.ok_bind, List.head?_cons, Option.any_some,
        if_pos (beq_self_eq_true ','), advance_facing_cons inside]
      dsimp only
      rw [passWhile_facing start, Walk.ok_bind, sliceFrom_dropWhile start]
      rfl
  · next other =>
      rw [styleAt, sees_facing inside, Walk.ok_bind, if_neg (any_head?_of_ne other)]
      rfl

theorem readStyle_suffix (text : List Char) : (readStyle text).2 <:+ text := by
  unfold readStyle
  split
  · exact (List.dropWhile_suffix _).trans (List.suffix_cons _ _)
  · exact List.suffix_refl _

/-! ## Elements, one step -/

section Step

variable {steps depth : Nat} {inPlural : Bool} {done : Message} {pending : List Char}

theorem elementsAt_nil (more : 0 < steps) :
    elementsAt context steps depth inPlural (facing source []) done pending =
      .ok (flush done pending, facing source []) := by
  have ended : (facing source []).atEnd = true := atEnd_facing List.nil_suffix
  obtain ⟨steps, rfl⟩ := Nat.exists_eq_add_one.mpr more
  rw [elementsAt, if_pos ended]

theorem elementsAt_cons {c : Char} (inside : c :: rest <:+ source) (more : 0 < steps) :
    elementsAt context steps depth inPlural (facing source (c :: rest)) done pending =
      if c == '\x7d' then .ok (flush done pending, facing source (c :: rest))
      else if c == '\x7b' then
        argumentAt context (steps - 1) depth inPlural (facing source (c :: rest)) >>= fun read =>
          elementsAt context (steps - 1) depth inPlural read.2 (flush done pending ++ [read.1]) []
      else if c == '#' && inPlural then
        elementsAt context (steps - 1) depth inPlural (facing source rest)
          (flush done pending ++ [.number]) []
      else if c == '\'' then
        quotedAt inPlural (facing source (c :: rest)) >>= fun read =>
          elementsAt context (steps - 1) depth inPlural read.2 done (pending ++ read.1)
      else
        elementsAt context (steps - 1) depth inPlural (facing source rest) done
          (pending ++ [c]) := by
  have notEnd : ¬(facing source (c :: rest)).atEnd = true := by simp [atEnd_facing inside]
  obtain ⟨steps, rfl⟩ := Nat.exists_eq_add_one.mpr more
  rw [elementsAt, if_neg notEnd, look_facing inside, advance_facing_cons inside, Walk.ok_bind]
  rfl

theorem elementsAt_apostrophe (inside : '\'' :: rest <:+ source) (more : 0 < steps) :
    elementsAt context steps depth inPlural (facing source ('\'' :: rest)) done pending =
      quotedAt inPlural (facing source ('\'' :: rest)) >>= fun read =>
        elementsAt context (steps - 1) depth inPlural read.2 done (pending ++ read.1) :=
  elementsAt_cons inside more

theorem elementsAt_char {c : Char} (inside : c :: rest <:+ source) (other : c ≠ '\'')
    (plain : ¬endsText inPlural c = true) (more : 0 < steps) :
    elementsAt context steps depth inPlural (facing source (c :: rest)) done pending =
      elementsAt context (steps - 1) depth inPlural (facing source rest) done (pending ++ [c]) := by
  simp only [endsText, opensLiteral, Bool.or_eq_true, not_or] at plain
  obtain ⟨⟨opening, closing⟩, sign⟩ := plain
  rw [elementsAt_cons inside more, if_neg closing, if_neg opening, if_neg sign,
    if_neg (by simpa using other)]

theorem elementsAt_number (plural : inPlural = true) (inside : '#' :: rest <:+ source)
    (more : 0 < steps) :
    elementsAt context steps depth inPlural (facing source ('#' :: rest)) done pending =
      elementsAt context (steps - 1) depth inPlural (facing source rest)
        (flush done pending ++ [.number]) [] := by
  subst plural
  exact elementsAt_cons inside more

theorem elementsAt_closed (inside : '\x7d' :: rest <:+ source) (more : 0 < steps) :
    elementsAt context steps depth inPlural (facing source ('\x7d' :: rest)) done pending =
      .ok (flush done pending, facing source ('\x7d' :: rest)) :=
  elementsAt_cons inside more

/-! ## Runs of text -/

/-- What becomes of elements that begin with a run of text: they are walked over from behind the
run, with its characters gathered and steps enough for what is left, or its fault stops the walk. -/
def GoesOn (context : Context) (source : List Char) (depth : Nat) (inPlural : Bool)
    (done : Message) (pending : List Char) (walk : Walk ParseError (Message × Cursor)) :
    Except Fault (List Char × List Char) → Prop
  | .error fault => walk = .error (fault.stop source)
  | .ok (chars, rest) => ∃ left, 3 * rest.length + 2 ≤ left ∧
      walk = elementsAt context left depth inPlural (facing source rest) done (pending ++ chars)

theorem GoesOn.prepend {front : List Char} {walk : Walk ParseError (Message × Cursor)}
    {read : Except Fault (List Char × List Char)}
    (h : GoesOn context source depth inPlural done (pending ++ front) walk read) :
    GoesOn context source depth inPlural done pending walk (prepend front read) := by
  cases read with
  | error fault => exact h
  | ok found =>
      obtain ⟨left, enough, same⟩ := h
      exact ⟨left, enough, by rw [same, List.append_assoc]⟩

theorem elementsAt_readText (inside : text <:+ source) (enough : 3 * text.length + 2 ≤ steps) :
    GoesOn context source depth inPlural done pending
      (elementsAt context steps depth inPlural (facing source text) done pending)
      (readText inPlural text) := by
  have more : 0 < steps := by omega
  fun_induction readText inPlural text generalizing steps pending with
  | case1 => exact ⟨steps, enough, by rw [List.append_nil]⟩
  | case2 rest ih =>
      simp only [List.length_cons] at enough
      have inside' := ((List.suffix_cons _ _).trans (List.suffix_cons _ _)).trans inside
      rw [elementsAt_apostrophe inside more, quotedAt_facing _ inside]
      exact (ih inside' (by omega) (by omega)).prepend
  | case3 =>
      simp only [List.length_cons, List.length_nil] at enough
      rw [elementsAt_apostrophe inside more, quotedAt_last _ inside]
      exact ⟨steps - 1, by simp only [List.length_nil]; omega, rfl⟩
  | case4 c rest other opens none =>
      rw [elementsAt_apostrophe inside more, quotedAt_facing _ inside,
        if_neg (by simpa using other), if_pos opens, none, faultAt, position_facing]
      rfl
  | case5 c rest other opens chars behind read ih =>
      have shorter := readLiteral_length read
      simp only [List.length_cons] at enough shorter
      have inside' := (readLiteral_sound read).suffix.trans ((List.suffix_cons _ _).trans inside)
      rw [elementsAt_apostrophe inside more, quotedAt_facing _ inside,
        if_neg (by simpa using other), if_pos opens, read]
      exact (ih inside' (by omega) (by omega)).prepend
  | case6 c rest other plain ih =>
      simp only [List.length_cons] at enough ih
      rw [elementsAt_apostrophe inside more, quotedAt_facing _ inside,
        if_neg (by simpa using other), if_neg plain]
      exact (ih ((List.suffix_cons _ _).trans inside) (by omega) (by omega)).prepend
  | case7 c rest _ _ _ ends => exact ⟨steps, enough, by rw [List.append_nil]⟩
  | case8 c rest double last quoted plain ih =>
      have other : c ≠ '\'' := by
        rintro rfl
        cases rest with
        | nil => exact last rfl rfl
        | cons d rest => exact quoted d rest rfl rfl
      simp only [List.length_cons] at enough
      rw [elementsAt_char inside other plain more]
      exact (ih ((List.suffix_cons _ _).trans inside) (by omega) (by omega)).prepend

end Step

/-! ## Rules -/

theorem flush_append (done : Message) (chars : List Char) (message : Message) :
    flush done chars ++ message = done ++ withText chars message := by
  rw [flush, withText, withText]
  split
  · rw [List.append_nil]
  · rw [List.append_assoc, List.singleton_append]

/-- An element with others behind it, gathered in two ways. -/
theorem reaches_flush {done message : Message} {chars : List Char} {element : Element}
    {found : Message × Cursor}
    (h : Reaches source (flush done chars ++ [element] ++ ·) (message, rest) found) :
    Reaches source (done ++ ·) (withText chars (element :: message), rest) found := by
  refine ⟨h.1.trans ?_, h.2⟩
  show flush done chars ++ [element] ++ message = done ++ withText chars (element :: message)
  rw [List.append_assoc, List.singleton_append, flush_append]

/-- The walks follow the rules with some fuel, as long as there is enough of it for the text, and
enough steps. -/
structure FollowsAt (context : Context) (source : List Char) (fuel : Nat) : Prop where
  elements : ∀ depth inPlural {text} steps (done : Message), text <:+ source →
    3 * text.length + 2 ≤ fuel → 3 * text.length + 2 ≤ steps →
    Follows (Fault.stop source) (Reaches source (done ++ ·))
      (parseElements context fuel depth inPlural text)
      (elementsAt context steps depth inPlural (facing source text) done [])
  argument : ∀ depth inPlural {opened} steps, '\x7b' :: opened <:+ source →
    3 * opened.length + 4 ≤ fuel → 3 * opened.length + 4 ≤ steps →
    Follows (Fault.stop source) (Reaches source id)
      (parseArgument context fuel depth inPlural ('\x7b' :: opened))
      (argumentAt context steps depth inPlural (facing source ('\x7b' :: opened)))
  choice : ∀ depth inPlural name kind {text} steps, text <:+ source →
    3 * text.length + 3 ≤ fuel → 3 * text.length + 3 ≤ steps →
    Follows (Fault.stop source) (Reaches source id)
      (parseChoice context fuel depth inPlural name kind text)
      (choiceAt context steps depth inPlural name kind (facing source text))
  cases : ∀ depth inPlural name categories seen {text} steps (done : Cases), text <:+ source →
    3 * text.length + 2 ≤ fuel → 3 * text.length + 2 ≤ steps →
    Follows (Fault.stop source) (Reaches source (done ++ ·))
      (parseCases context fuel depth inPlural name categories seen text)
      (casesAt context steps depth inPlural name categories seen (facing source text) done)

section Rules

variable {fuel : Nat}

theorem elements_follows (ih : FollowsAt context source fuel) (depth : Nat) (inPlural : Bool)
    {text : List Char} (steps : Nat) (done : Message)
    (inside : text <:+ source) (fueled : 3 * text.length + 2 ≤ fuel + 1)
    (enough : 3 * text.length + 2 ≤ steps) :
    Follows (Fault.stop source) (Reaches source (done ++ ·))
      (parseElements context (fuel + 1) depth inPlural text)
      (elementsAt context steps depth inPlural (facing source text) done []) := by
  have walked : GoesOn context source depth inPlural done [] _ _ :=
    elementsAt_readText inside enough
  rw [parseElements]
  split
  · next why read =>
      rw [read] at walked
      rw [show elementsAt _ _ _ _ _ _ _ = _ from walked]
      exact .fault why
  next chars rest read =>
  rw [read] at walked
  obtain ⟨left, enough, walked⟩ := walked
  have run := readText_iff.mp read
  have shorter := run.length_le
  have inside := run.suffix.trans inside
  rw [walked, List.nil_append]
  split
  · next opened =>
      simp only [List.length_cons] at enough shorter
      have argument := ih.argument depth inPlural (left - 1) inside (by omega) (by omega)
      rw [elementsAt_cons inside (by omega)]
      show Follows _ _ _ (argumentAt _ _ _ _ _ >>= _)
      split
      · next why parsed => exact argument.fault_bind parsed _
      next element behind parsed =>
      have closed := ((soundAt context fuel).argument parsed).length_lt
      refine argument.reached parsed fun inside => ?_
      have others := ih.elements depth inPlural (left - 1) (flush done chars ++ [element]) inside
        (by omega) (by omega)
      split
      · next why parsed => exact others.fault_last parsed
      · next message rest parsed => exact others.ok_last parsed fun _ => reaches_flush
  · next behind =>
      simp only [List.length_cons] at enough shorter
      have plural : inPlural = true := by simpa [Special] using run.stops '#' rfl
      have others := ih.elements depth inPlural (left - 1) (flush done chars ++ [.number])
        ((List.suffix_cons _ _).trans inside) (by omega) (by omega)
      rw [elementsAt_number plural inside (by omega)]
      split
      · next why parsed => exact others.fault_last parsed
      · next message rest parsed => exact others.ok_last parsed fun _ => reaches_flush
  · next noBrace noSign =>
      have ended : elementsAt context left depth inPlural (facing source rest) done chars =
          .ok (flush done chars, facing source rest) := by
        cases rest with
        | nil => exact elementsAt_nil (by omega)
        | cons c tail =>
            rcases run.stops c rfl with rfl | rfl | ⟨rfl, _⟩
            · exact absurd rfl (noBrace tail)
            · exact elementsAt_closed inside (by omega)
            · exact absurd rfl (noSign tail)
      rw [ended]
      exact .ok ⟨rfl, rfl, inside⟩

theorem argument_follows (ih : FollowsAt context source fuel) (depth : Nat) (inPlural : Bool)
    {opened : List Char} (steps : Nat)
    (inside : '\x7b' :: opened <:+ source) (fueled : 3 * opened.length + 4 ≤ fuel + 1)
    (enough : 3 * opened.length + 4 ≤ steps) :
    Follows (Fault.stop source) (Reaches source id)
      (parseArgument context (fuel + 1) depth inPlural ('\x7b' :: opened))
      (argumentAt context steps depth inPlural (facing source ('\x7b' :: opened))) := by
  obtain ⟨steps, rfl⟩ := Nat.exists_eq_add_one.mpr (show 0 < steps by omega)
  have opening := inside
  have inside := (List.suffix_cons _ _).trans inside
  rw [parseArgument, argumentAt, List.drop_one, List.tail_cons, advance_facing_cons opening,
    blanks_facing inside]
  have named := follows_readWord .argumentName (blanks_inside inside)
  split
  · next why read => exact named.fault_bind read _
  next name behindName read =>
  have h₁ := skipBlanks_length_le opened
  have h₂ := readWord_length_lt read
  refine named.reached read fun inside => ?_
  have inside' := blanks_inside inside
  dsimp only [id]
  rw [blanks_facing inside, sees_facing inside', Walk.ok_bind]
  split
  · next behind closed =>
      rw [closed] at inside' ⊢
      exact .ok ⟨rfl, advance_facing_cons inside', (List.suffix_cons _ _).trans inside'⟩
  next open' =>
  rw [if_neg (any_head?_of_ne open')]
  have comma := follows_expect ',' inside'
  split
  · next why read => exact comma.fault_bind read _
  next behindComma read =>
  have h₃ := (skipBlanks_length_le _).trans_lt (expect_length_lt read)
  refine comma.faced read fun inside => ?_
  rw [blanks_facing inside]
  have kinded := follows_readWord .argumentType (blanks_inside inside)
  split
  · next why read => exact kinded.fault_bind read _
  next kind behindKind read =>
  have h₄ := readWord_length_lt read
  refine kinded.reached read fun inside => ?_
  have inside' := blanks_inside inside
  dsimp only [id]
  rw [blanks_facing inside]
  split
  · split
    · exact follows_fault _ _ _
    have comma := follows_expect ',' inside'
    split
    · next why read => exact comma.fault_bind read _
    next behindComma read =>
    have h₅ := (skipBlanks_length_le _).trans_lt (expect_length_lt read)
    refine comma.faced read fun inside => ?_
    rw [blanks_facing inside]
    exact ih.choice depth inPlural name kind steps (blanks_inside inside) (by omega) (by omega)
  · rw [styleAt_facing inside', Walk.ok_bind]
    have closing := follows_expect '\x7d' ((readStyle_suffix _).trans inside')
    split
    · next why read => exact closing.fault_bind read _
    · next behind read => exact closing.faced read fun inside => .ok ⟨rfl, rfl, inside⟩

theorem choice_follows (ih : FollowsAt context source fuel) (depth : Nat) (inPlural : Bool)
    (name kind : String) {text : List Char} (steps : Nat)
    (inside : text <:+ source) (fueled : 3 * text.length + 3 ≤ fuel + 1)
    (enough : 3 * text.length + 3 ≤ steps) :
    Follows (Fault.stop source) (Reaches source id)
      (parseChoice context (fuel + 1) depth inPlural name kind text)
      (choiceAt context steps depth inPlural name kind (facing source text)) := by
  obtain ⟨steps, rfl⟩ := Nat.exists_eq_add_one.mpr (show 0 < steps by omega)
  rw [parseChoice, choiceAt]
  split
  · have listed := ih.cases (depth + 1) inPlural name none [] steps [] inside (by omega) (by omega)
    split
    · next why read => exact listed.fault_bind read _
    next cases behind read =>
    refine listed.reached read fun inside => ?_
    have closing := follows_expect '\x7d' inside
    split
    · next why read => exact closing.fault_bind read _
    · next rest read => exact closing.faced read fun inside => .ok ⟨rfl, rfl, inside⟩
  · have moved := follows_readOffset inside
    split
    · next why read => exact moved.fault_bind read _
    next offset behindOffset read =>
    have shorter := readOffset_length_le read
    refine moved.reached read fun inside => ?_
    dsimp only [id]
    have listed := ih.cases (depth + 1) true name
      (some (if kind == "selectordinal" then context.ordinal else context.cardinal)) [] steps []
      inside (by omega) (by omega)
    split
    · next why read => exact listed.fault_bind read _
    next cases behind read =>
    refine listed.reached read fun inside => ?_
    have closing := follows_expect '\x7d' inside
    split
    · next why read => exact closing.fault_bind read _
    · next rest read => exact closing.faced read fun inside => .ok ⟨rfl, rfl, inside⟩

theorem cases_follows (ih : FollowsAt context source fuel) (depth : Nat) (inPlural : Bool)
    (name : String) (categories : Option (List String)) (seen : List String) {text : List Char}
    (steps : Nat) (done : Cases)
    (inside : text <:+ source) (fueled : 3 * text.length + 2 ≤ fuel + 1)
    (enough : 3 * text.length + 2 ≤ steps) :
    Follows (Fault.stop source) (Reaches source (done ++ ·))
      (parseCases context (fuel + 1) depth inPlural name categories seen text)
      (casesAt context steps depth inPlural name categories seen (facing source text) done) := by
  obtain ⟨steps, rfl⟩ := Nat.exists_eq_add_one.mpr (show 0 < steps by omega)
  have start := blanks_inside inside
  rw [parseCases, casesAt, blanks_facing inside]
  dsimp only
  rw [sees_facing start, Walk.ok_bind, atEnd_facing start, head?_any_eq]
  split
  · split
    · exact .ok ⟨(List.append_nil _).symm, rfl, start⟩
    · exact follows_fault _ _ _
  have keyed := follows_readWord .caseKey start
  split
  · next why read => exact keyed.fault_bind read _
  next key behindKey read =>
  have h₁ := skipBlanks_length_le text
  have h₂ := readWord_length_lt read
  refine keyed.reached read fun inside => ?_
  dsimp only [id]
  rcases checkKey categories name seen key with cause | fits
  · exact follows_fault cause source _
  dsimp only
  rw [blanks_facing inside]
  have opening := follows_expect '\x7b' (blanks_inside inside)
  split
  · next why read => exact opening.fault_bind read _
  next opened read =>
  have h₃ := expect_length_lt read
  refine opening.faced read fun inside => ?_
  have body := ih.elements depth inPlural steps [] inside (by omega) (by omega)
  split
  · next why parsed => exact body.fault_bind parsed _
  next message behindBody parsed =>
  have h₄ := ((soundAt context fuel).elements parsed).length_le
  refine body.reached parsed fun inside => ?_
  have closing := follows_expect '\x7d' inside
  split
  · next why read => exact closing.fault_bind read _
  next rest read =>
  have h₅ := expect_length_lt read
  refine closing.faced read fun inside => ?_
  have others := ih.cases depth inPlural name categories (key :: seen) steps
    (done ++ [(key, message)]) inside (by omega) (by omega)
  split
  · next why parsed => exact others.fault_last parsed
  · next more rest parsed =>
      refine others.ok_last parsed fun found h => ⟨h.1.trans ?_, h.2⟩
      exact List.append_assoc _ _ _

end Rules

theorem followsAt (context : Context) (source : List Char) (fuel : Nat) :
    FollowsAt context source fuel := by
  induction fuel with
  | zero =>
      -- no text is so short that no fuel is enough for it
      constructor <;> intros <;> omega
  | succ fuel ih =>
      exact ⟨elements_follows ih, argument_follows ih, choice_follows ih, cases_follows ih⟩

/-! ## Whole texts -/

theorem follows_parseText (context : Context) (text : List Char) :
    Follows (Fault.stop text) Eq (parseText context text) (parseAt context text) := by
  have walked := (followsAt context text (3 * text.length + 3)).elements 0 false
    (3 * text.length + 3) [] (List.suffix_refl text) (by omega) (by omega)
  rw [parseText, parseAt, ← facing_self]
  split
  · next why parsed => exact walked.fault_bind parsed _
  · next message parsed =>
      refine walked.reached parsed fun inside => ?_
      dsimp only
      rw [atEnd_facing inside]
      exact .ok (List.nil_append message).symm
  · next message rest more parsed =>
      refine walked.reached parsed fun inside => ?_
      have notEnd : ¬rest.isEmpty = true := mt List.isEmpty_iff.mp more
      dsimp only
      rw [atEnd_facing inside, if_neg notEnd]
      exact follows_fault .unexpectedBrace text rest

/-- A walk over a text is the parser, and each of its faults one of the notation. -/
theorem parseAt_eq (context : Context) (text : List Char) :
    parseAt context text = (parse context text).mapError Stop.fault := by
  rw [(follows_parseText context text).eq_mapError, parse]
  cases parseText context text with
  | ok message => rfl
  | error fault => rfl

end MessageCatalog.Message
