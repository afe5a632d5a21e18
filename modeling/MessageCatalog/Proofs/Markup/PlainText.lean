import Mathlib.Data.List.TakeWhile
import MessageCatalog.Proofs.Markup.Pass

/-!
# MessageCatalog.Proofs.Markup.PlainText -- text without brackets

A text without brackets and numeric references is read as data and named references. Three things
can change it. A semicolon behind a name is taken for the end of a reference whether or not there is
such a name; an ampersand before a single letter at the end is left out; and where a run of letters
reaches the end, its front up to the last hyphen or dot counts as a name. A text in which none of
this happens is lossless: it is read as it stands, and stays so when its references are written out.
-/

namespace MessageCatalog.Markup

open MessageCatalog.Text

/-! ## What stands behind ampersands -/

/-- What follows every ampersand of a text has a property. -/
def Behind (holds : List Char → Prop) (text : List Char) : Prop :=
  ∀ after, '&' :: after <:+ text → holds after

variable {holds : List Char → Prop}

theorem behind_nil : Behind holds [] := by
  intro after suffix
  cases List.suffix_nil.mp suffix

theorem behind_cons {c : Char} {text : List Char} :
    Behind holds (c :: text) ↔ (c = '&' → holds text) ∧ Behind holds text := by
  constructor
  · intro h
    refine ⟨?_, fun after suffix => h after (suffix.trans (List.suffix_cons c text))⟩
    rintro rfl
    exact h text (List.suffix_refl _)
  · rintro ⟨first, others⟩ after suffix
    rcases List.suffix_cons_iff.mp suffix with same | later
    · obtain ⟨rfl, rfl⟩ := List.cons.inj same
      exact first rfl
    · exact others after later

/-- A front without ampersands does not matter. -/
theorem behind_append {front text : List Char} (none : '&' ∉ front) :
    Behind holds (front ++ text) ↔ Behind holds text := by
  induction front with
  | nil => exact Iff.rfl
  | cons c front ih =>
      rw [List.mem_cons, not_or] at none
      rw [List.cons_append, behind_cons, ih none.2]
      have other : ¬c = '&' := fun same => none.1 same.symm
      simp [other]

theorem behind_suffix {rest text : List Char} (h : Behind holds text)
    (suffix : rest <:+ text) : Behind holds rest :=
  fun after later => h after (later.trans suffix)

theorem behind_of_not_mem {text : List Char} (none : '&' ∉ text) : Behind holds text := by
  have all : Behind holds (text ++ []) := (behind_append none).mpr behind_nil
  rwa [List.append_nil] at all

/-! ## Names of references -/

/-- The letters, digits, hyphens and dots at the front of a text, from a letter on. -/
def nameRun : List Char → List Char
  | [] => []
  | c :: rest => if isAsciiLetter c then c :: rest.takeWhile isReferenceNameCharacter else []

/-- The front of a text up to the last of its hyphens and dots. -/
def Fronts (name text : List Char) : Prop :=
  ∃ mark others, text = name ++ mark :: others ∧ (mark = '-' ∨ mark = '.') ∧
    ∀ c ∈ others, isAsciiAlphanumeric c = true

/-- How the name of a reference is read behind its ampersand. -/
inductive Named : (text : List Char) → Option (List Char) → Prop where
  | noLetter {text : List Char} : nameRun text = [] → Named text none
  | followed {text : List Char} (c : Char) (after : List Char) :
      nameRun text ≠ [] → text = nameRun text ++ c :: after → Named text (some (nameRun text))
  | front {text name : List Char} : nameRun text = text → Fronts name text → Named text (some name)
  | letters {text : List Char} :
      text ≠ [] → nameRun text = text → (∀ name, ¬Fronts name text) → Named text none

theorem ampersand_not_mem_nameRun (text : List Char) : '&' ∉ nameRun text := by
  cases text with
  | nil => exact List.not_mem_nil
  | cons c rest =>
      rw [nameRun]
      split
      · next letter =>
          rw [List.mem_cons, not_or]
          constructor
          · rintro rfl
            cases letter
          · exact fun there => absurd (List.mem_takeWhile_imp there) (by decide)
      · exact List.not_mem_nil

theorem isReferenceNameCharacter_iff {c : Char} :
    isReferenceNameCharacter c = true ↔ isAsciiAlphanumeric c = true ∨ c = '-' ∨ c = '.' := by
  simp [isReferenceNameCharacter, or_assoc]

theorem mark_not_alphanumeric {mark : Char} (h : mark = '-' ∨ mark = '.') :
    isAsciiAlphanumeric mark = false := by
  rcases h with rfl | rfl <;> decide

theorem letter_alphanumeric {c : Char} (letter : isAsciiLetter c = true) :
    isAsciiAlphanumeric c = true := by
  rw [isAsciiAlphanumeric, letter, Bool.true_or]

/-- Behind a letter a text has the fronts that it has with the letter. -/
theorem fronts_cons {c : Char} (letter : isAsciiLetter c = true) {name rest : List Char} :
    Fronts name (c :: rest) ↔ ∃ others, name = c :: others ∧ Fronts others rest := by
  constructor
  · rintro ⟨mark, others, split, isMark, plain⟩
    cases name with
    | nil =>
        obtain ⟨rfl, -⟩ := List.cons.inj split
        exact absurd (letter_alphanumeric letter) (by simp [mark_not_alphanumeric isMark])
    | cons first name =>
        rw [List.cons_append, List.cons.injEq] at split
        obtain ⟨rfl, split⟩ := split
        exact ⟨name, rfl, mark, others, split, isMark, plain⟩
  · rintro ⟨name, rfl, mark, others, rfl, isMark, plain⟩
    exact ⟨mark, others, rfl, isMark, plain⟩

/-- A run has a front, or consists of letters and digits. -/
theorem exists_fronts {run : List Char}
    (named : ∀ c ∈ run, isReferenceNameCharacter c = true) :
    (∃ name, Fronts name run) ∨ ∀ c ∈ run, isAsciiAlphanumeric c = true := by
  induction run with
  | nil => exact Or.inr (by simp)
  | cons c rest ih =>
      rw [List.forall_mem_cons] at named
      rcases ih named.2 with ⟨name, mark, others, rfl, isMark, plain⟩ | plain
      · exact Or.inl ⟨c :: name, mark, others, rfl, isMark, plain⟩
      · rcases isReferenceNameCharacter_iff.mp named.1 with own | isMark
        · exact Or.inr (List.forall_mem_cons.mpr ⟨own, plain⟩)
        · exact Or.inl ⟨[], c, rest, rfl, isMark, plain⟩

theorem nameLengthAtEnd_front {name run : List Char} (h : Fronts name run) :
    nameLengthAtEnd run = name.length := by
  obtain ⟨mark, others, rfl, isMark, plain⟩ := h
  -- counted from the end, the front is what the last mark leaves
  have left : (name ++ mark :: others).reverse.dropWhile isAsciiAlphanumeric =
      mark :: name.reverse := by
    have all : ∀ c ∈ others.reverse, isAsciiAlphanumeric c = true := by simpa using plain
    rw [List.reverse_append, List.reverse_cons, List.append_assoc,
      List.dropWhile_append_of_pos all, List.singleton_append, List.dropWhile_cons_of_neg]
    simp [mark_not_alphanumeric isMark]
  rw [nameLengthAtEnd, left]
  simp

theorem nameLengthAtEnd_plain {run : List Char}
    (plain : ∀ c ∈ run, isAsciiAlphanumeric c = true) : nameLengthAtEnd run = 0 := by
  have all : run.reverse.dropWhile isAsciiAlphanumeric = [] := by
    rw [List.dropWhile_eq_nil_iff]
    simpa using plain
  rw [nameLengthAtEnd, all]
  rfl

theorem readReferenceName_followed {c d : Char} {rest after : List Char}
    (letter : isAsciiLetter c = true)
    (split : rest = rest.takeWhile isReferenceNameCharacter ++ d :: after) :
    readReferenceName (c :: rest) = some (nameRun (c :: rest)) := by
  have less : (rest.takeWhile isReferenceNameCharacter).length < rest.length := by
    have length := congrArg List.length split
    rw [List.length_append, List.length_cons] at length
    omega
  rw [readReferenceName, if_pos letter]
  dsimp only
  rw [if_pos less, nameRun, if_pos letter]

theorem readReferenceName_front {c : Char} {name rest : List Char}
    (letter : isAsciiLetter c = true)
    (whole : rest.takeWhile isReferenceNameCharacter = rest) (fronts : Fronts name rest) :
    readReferenceName (c :: rest) = some (c :: name) := by
  have size := nameLengthAtEnd_front fronts
  obtain ⟨mark, others, rfl, isMark, plain⟩ := fronts
  rw [readReferenceName, if_pos letter]
  dsimp only
  rw [whole, if_neg (Nat.lt_irrefl _), size]
  simp [mark_not_alphanumeric isMark]

theorem readReferenceName_plain {c : Char} {rest : List Char} (letter : isAsciiLetter c = true)
    (whole : rest.takeWhile isReferenceNameCharacter = rest)
    (plain : ∀ d ∈ rest, isAsciiAlphanumeric d = true) : readReferenceName (c :: rest) = none := by
  rw [readReferenceName, if_pos letter]
  dsimp only
  rw [whole, if_neg (Nat.lt_irrefl _), nameLengthAtEnd_plain plain, List.drop_zero]
  cases rest with
  | nil => rfl
  | cons d rest => simp [plain d List.mem_cons_self]

/-- The name of a reference is read in one of four ways. -/
theorem named_readReferenceName (text : List Char) : Named text (readReferenceName text) := by
  cases text with
  | nil => exact .noLetter rfl
  | cons c rest =>
      by_cases letter : isAsciiLetter c
      · have run : nameRun (c :: rest) = c :: rest.takeWhile isReferenceNameCharacter := by
          rw [nameRun, if_pos letter]
        have split : rest = rest.takeWhile isReferenceNameCharacter ++
            rest.dropWhile isReferenceNameCharacter := (List.takeWhile_append_dropWhile).symm
        cases behind : rest.dropWhile isReferenceNameCharacter with
        | cons d after =>
            -- something follows the run
            rw [behind] at split
            rw [readReferenceName_followed letter split]
            refine .followed d after ?_ ?_
            · rw [run]
              exact List.cons_ne_nil _ _
            · rw [run, List.cons_append, ← split]
        | nil =>
            -- the run reaches the end
            have whole : rest.takeWhile isReferenceNameCharacter = rest := by
              rw [behind, List.append_nil] at split
              exact split.symm
            rw [whole] at run
            have named : ∀ d ∈ rest, isReferenceNameCharacter d = true := by
              intro d there
              rw [← whole] at there
              exact List.mem_takeWhile_imp there
            rcases exists_fronts named with ⟨name, fronts⟩ | plain
            · rw [readReferenceName_front letter whole fronts]
              exact .front run ((fronts_cons letter).mpr ⟨name, rfl, fronts⟩)
            · rw [readReferenceName_plain letter whole plain]
              refine .letters (List.cons_ne_nil _ _) run ?_
              rintro name ⟨mark, others, same, isMark, _⟩
              have there : mark ∈ c :: rest := by simp [same]
              have own : isAsciiAlphanumeric mark = true := by
                rcases List.mem_cons.mp there with rfl | later
                · exact letter_alphanumeric letter
                · exact plain mark later
              rw [mark_not_alphanumeric isMark] at own
              cases own
      · have none : nameRun (c :: rest) = [] := by rw [nameRun, if_neg letter]
        rw [readReferenceName, if_neg letter]
        exact .noLetter none

/-- Without a name a text that starts with a letter is one run. -/
theorem nameRun_of_none {text : List Char} {c : Char} (none : readReferenceName text = none)
    (first : text.head? = some c) (letter : isAsciiLetter c = true) : nameRun text = text := by
  have named := named_readReferenceName text
  rw [none] at named
  cases named with
  | noLetter nothing =>
      cases text with
      | nil => rfl
      | cons d rest =>
          cases first
          rw [nameRun, if_pos letter] at nothing
          cases nothing
  | letters _ whole _ => exact whole

/-! ## What a text is read as -/

/-- Whether a text is a single letter. -/
def isOneLetter : List Char → Bool
  | [c] => isAsciiLetter c
  | _ => false

/-- What is left behind the name of a reference and its semicolon. -/
def behindName (name text : List Char) : List Char :=
  text.drop (name.length + semicolonSize (text.drop name.length))

theorem behindName_suffix (name rest : List Char) : behindName name rest <:+ rest :=
  List.drop_suffix _ _

theorem length_behindName (name text : List Char) : (behindName name text).length ≤ text.length := by
  rw [behindName, List.length_drop]
  omega

/-- A text without brackets with its references spelled in a way. The ampersand before a single
letter at the end is left out. -/
def retold (spell : List Char → List Char) : List Char → List Char
  | [] => []
  | c :: rest =>
    if c = '&' then
      match readReferenceName rest with
      | some name => spell name ++ retold spell (behindName name rest)
      | none => if isOneLetter rest then retold spell rest else '&' :: retold spell rest
    else c :: retold spell rest
termination_by text => text.length
decreasing_by
  · have shorter := length_behindName name rest
    rw [List.length_cons]
    omega
  all_goals simp

variable (spell : List Char → List Char)

@[simp] theorem retold_nil : retold spell [] = [] := by rw [retold]

theorem retold_cons {c : Char} (h : c ≠ '&') (rest : List Char) :
    retold spell (c :: rest) = c :: retold spell rest := by
  rw [retold, if_neg h]

theorem retold_named {name rest : List Char} (h : readReferenceName rest = some name) :
    retold spell ('&' :: rest) = spell name ++ retold spell (behindName name rest) := by
  rw [retold, if_pos rfl, h]

theorem retold_letter {c : Char} (letter : isAsciiLetter c = true) :
    retold spell ['&', c] = [c] := by
  have none : readReferenceName [c] = none := readReferenceName_plain letter rfl (by simp)
  have other : c ≠ '&' := by
    rintro rfl
    cases letter
  rw [retold, if_pos rfl, none]
  simp only [isOneLetter, letter, if_true]
  rw [retold_cons spell other, retold_nil]

theorem retold_ampersand {rest : List Char} (h : readReferenceName rest = none)
    (more : isOneLetter rest = false) : retold spell ('&' :: rest) = '&' :: retold spell rest := by
  rw [retold, if_pos rfl, h]
  simp only [more, Bool.false_eq_true, if_false]

theorem retold_append {front : List Char} (none : '&' ∉ front) (text : List Char) :
    retold spell (front ++ text) = front ++ retold spell text := by
  induction front with
  | nil => rfl
  | cons c front ih =>
      rw [List.mem_cons, not_or] at none
      rw [List.cons_append, retold_cons spell (Ne.symm none.1), ih none.2, List.cons_append]

theorem retold_of_not_mem {text : List Char} (none : '&' ∉ text) : retold spell text = text := by
  have all := retold_append spell none []
  rwa [retold_nil, List.append_nil] at all

/-- A text is read from its front: a character, a named reference, an ampersand before a single
letter at the end, or any other ampersand. -/
theorem text_induction {motive : List Char → Prop} (nil : motive [])
    (plain : ∀ c rest, c ≠ '&' → motive rest → motive (c :: rest))
    (named : ∀ name rest, readReferenceName rest = some name → motive (behindName name rest) →
      motive ('&' :: rest))
    (letter : ∀ c, isAsciiLetter c = true → motive ['&', c])
    (ampersand : ∀ rest, readReferenceName rest = none → isOneLetter rest = false → motive rest →
      motive ('&' :: rest))
    (text : List Char) : motive text := by
  match text with
  | [] => exact nil
  | c :: rest =>
      have others : ∀ shorter : List Char, shorter.length ≤ rest.length → motive shorter :=
        fun shorter less => text_induction nil plain named letter ampersand shorter
      by_cases first : c = '&'
      · subst first
        cases found : readReferenceName rest with
        | some name => exact named name rest found (others _ (length_behindName name rest))
        | none =>
            by_cases one : isOneLetter rest = true
            · match rest, one with
              | [d], isLetter => exact letter d isLetter
            · exact ampersand rest found (Bool.eq_false_iff.mpr one) (others rest (Nat.le_refl _))
      · exact plain c rest first (others rest (Nat.le_refl _))
termination_by text.length
decreasing_by
  rw [List.length_cons]
  omega

/-! ## Events of text -/

/-- An event is text of a page, or a reference. -/
def Event.IsTextOf (text : List Char) : Event → Prop
  | .data chars => chars <:+: text
  | .named _ => True
  | _ => False

/-- An event of text, references spelled in a way. -/
def Event.retold : Event → List Char
  | .data chars => chars
  | .named name => spell name
  | _ => []

/-- Events of text, references spelled in a way. -/
def eventsRetold (events : List Located) : List Char :=
  events.flatMap fun located => located.event.retold spell

variable {spell}

theorem Event.IsTextOf.mono {text whole : List Char} (inside : text <:+: whole) {event : Event}
    (h : event.IsTextOf text) : event.IsTextOf whole := by
  cases event with
  | data chars => exact h.trans inside
  | named name => trivial
  | startTag _ _ _ | endTag _ | numeric _ | comment _ | declaration _ | marked _ | instruction _ =>
      exact h.elim

/-- A text at which the first pass stops: an ampersand that no name follows so far. -/
def Unfinished (text : List Char) : Prop :=
  text = [] ∨ ∃ rest, text = '&' :: rest ∧ readReferenceName rest = none ∧
    (rest = [] ∨ nameRun rest = rest)

/-- What a pass over a text without brackets has read and left. -/
structure TextRead (text : List Char) (result : PassResult) : Prop where
  mode : result.mode = .markup
  rejection : result.rejection = none
  suffix : result.rest <:+ text
  events : ∀ located ∈ result.events, located.event.IsTextOf text
  retold : ∀ spell, eventsRetold spell result.events ++ Markup.retold spell result.rest =
    Markup.retold spell text

theorem TextRead.push {rest : List Char} {result : PassResult} (h : TextRead rest result)
    {text : List Char} (suffix : rest <:+ text) (event : Event) (isText : event.IsTextOf text)
    (first : ∀ spell, event.retold spell ++ Markup.retold spell rest = Markup.retold spell text)
    (offset : Nat) : TextRead text (result.push offset (some event)) where
  mode := h.mode
  rejection := h.rejection
  suffix := h.suffix.trans suffix
  events := by
    intro located there
    rcases List.mem_cons.mp there with rfl | later
    · exact isText
    · exact (h.events located later).mono suffix.isInfix
  retold := by
    intro spell
    have others := h.retold spell
    show (event.retold spell ++ eventsRetold spell result.events) ++ _ = _
    rw [List.append_assoc]
    show event.retold spell ++
      (eventsRetold spell result.events ++ Markup.retold spell result.rest) = _
    rw [others, first]

/-! ## The two passes -/

/-- No bracket stands in a text, and no ampersand before a number sign. -/
structure Bracketless (text : List Char) : Prop where
  bracket : '<' ∉ text
  number : Behind (fun after => after.head? ≠ some '#') text

theorem Bracketless.suffix {rest text : List Char} (h : Bracketless text) (suffix : rest <:+ text) :
    Bracketless rest where
  bracket := fun there => h.bracket (suffix.subset there)
  number := fun after later => h.number after (later.trans suffix)

theorem readAmpersand_named {final : Bool} {rest name : List Char} (number : rest.head? ≠ some '#')
    (named : readReferenceName rest = some name) :
    readAmpersand final ('&' :: rest) =
      .event (name.length + semicolonSize (rest.drop name.length)) (some (.named name)) .markup := by
  cases rest with
  | nil => cases named
  | cons c after =>
      rw [readAmpersand, List.drop_succ_cons, List.drop_zero]
      split
      · next same => cases same
      · next same =>
          cases same
          exact absurd rfl number
      · next d others _ same =>
          cases same
          rw [named]

theorem readAmpersand_none {final : Bool} {c : Char} {after : List Char}
    (number : (c :: after).head? ≠ some '#') (none : readReferenceName (c :: after) = none) :
    readAmpersand final ('&' :: c :: after) =
      if isAsciiLetter c then (if final && after.isEmpty then .drop else .stop [])
      else .event 0 (some (.data ['&'])) .markup := by
  rw [readAmpersand, List.drop_succ_cons, List.drop_zero]
  split
  · next same => cases same
  · next same =>
      cases same
      exact absurd rfl number
  · next d others _ same =>
      cases same
      rw [none]

/-- The first pass reads a text without brackets as text, up to where it stops. -/
theorem pass_bracketless {text : List Char} (h : Bracketless text) (offset : Nat) :
    TextRead text (pass false .markup offset text) ∧
      Unfinished (pass false .markup offset text).rest := by
  match text with
  | [] =>
      rw [pass]
      exact ⟨⟨rfl, rfl, List.suffix_refl _, by simp, fun spell => rfl⟩, Or.inl rfl⟩
  | c :: rest =>
      by_cases ampersand : c = '&'
      · subst ampersand
        have number : rest.head? ≠ some '#' := h.number rest (List.suffix_refl _)
        have tail : rest <:+ '&' :: rest := List.suffix_cons _ _
        cases found : readReferenceName rest with
        | some name =>
            have suffix : behindName name rest <:+ '&' :: rest := (behindName_suffix name rest).trans tail
            have shorter := length_behindName name rest
            obtain ⟨read, stops⟩ := pass_bracketless (h.suffix suffix)
              (offset + (name.length + semicolonSize (rest.drop name.length)) + 1)
            rw [pass, readPiece_ampersand, readAmpersand_named number found]
            exact ⟨read.push suffix (.named name) trivial
              (fun spell => (retold_named spell found).symm) _, stops⟩
        | none =>
            cases rest with
            | nil =>
                rw [pass]
                exact ⟨⟨rfl, rfl, List.suffix_refl _, by simp [readPiece_ampersand, readAmpersand],
                  fun spell => rfl⟩, Or.inr ⟨[], rfl, found, Or.inl rfl⟩⟩
            | cons d after =>
                rw [pass, readPiece_ampersand, readAmpersand_none number found]
                by_cases letter : isAsciiLetter d
                · -- the name may go on in what is still to come
                  have whole : nameRun (d :: after) = d :: after :=
                    nameRun_of_none found rfl letter
                  rw [if_pos letter]
                  exact ⟨⟨rfl, rfl, List.suffix_refl _, by simp, fun spell => rfl⟩,
                    Or.inr ⟨d :: after, rfl, found, Or.inr whole⟩⟩
                · rw [if_neg letter]
                  have more : isOneLetter (d :: after) = false := by
                    cases after <;> simp [isOneLetter, letter]
                  obtain ⟨read, stops⟩ := pass_bracketless (h.suffix tail) (offset + 0 + 1)
                  exact ⟨read.push tail (.data ['&']) ⟨[], d :: after, rfl⟩
                    (fun spell => (retold_ampersand spell found more).symm) _, stops⟩
      · have plain : startsConstruct c = false := by
          have less : c ≠ '<' := by
            rintro rfl
            exact h.bracket List.mem_cons_self
          simp [startsConstruct, less, ampersand]
        have split : c :: rest = (c :: plainRun rest) ++ afterPlain rest := by
          rw [List.cons_append, plainRun, afterPlain, List.takeWhile_append_dropWhile]
        have suffix : afterPlain rest <:+ c :: rest :=
          (List.dropWhile_suffix _).trans (List.suffix_cons c rest)
        have shorter : (afterPlain rest).length < (c :: rest).length :=
          Nat.lt_succ_of_le (List.dropWhile_suffix _).length_le
        have none : '&' ∉ c :: plainRun rest := by
          rw [List.mem_cons, not_or]
          exact ⟨Ne.symm ampersand, fun there => absurd (List.mem_takeWhile_imp there) (by decide)⟩
        obtain ⟨read, stops⟩ := pass_bracketless (h.suffix suffix)
          (offset + 1 + (plainRun rest).length)
        rw [pass_plain plain]
        refine ⟨read.push suffix (.data (c :: plainRun rest)) ⟨[], afterPlain rest, split.symm⟩
          (fun spell => ?_) _, stops⟩
        have first := retold_append spell none (afterPlain rest)
        rw [← split] at first
        exact first.symm
termination_by text.length
decreasing_by
  · rw [‹rest = d :: after›]
    exact Nat.lt_succ_self _
  · rw [List.length_cons]
    omega
  · exact shorter

/-- The second pass takes an unfinished text as it stands, or leaves out an ampersand before a
single letter. -/
theorem pass_unfinished {text : List Char} (h : Bracketless text) (stops : Unfinished text)
    (offset : Nat) :
    (pass true .markup offset text).events = [] ∧
      (pass true .markup offset text).rejection = none ∧
      (pass true .markup offset text).mode = .markup ∧
      (pass true .markup offset text).rest <:+ text ∧
      ∀ spell, retold spell text = (pass true .markup offset text).rest := by
  rcases stops with rfl | ⟨rest, rfl, none, whole⟩
  · rw [pass]
    exact ⟨rfl, rfl, rfl, List.suffix_refl _, fun spell => retold_nil spell⟩
  · have number : rest.head? ≠ some '#' := h.number rest (List.suffix_refl _)
    -- no ampersand stands in what is left, since it is one run
    have alone : '&' ∉ rest := by
      rcases whole with rfl | whole
      · exact List.not_mem_nil
      · rw [← whole]
        exact ampersand_not_mem_nameRun rest
    cases rest with
    | nil =>
        rw [pass]
        refine ⟨rfl, rfl, rfl, List.suffix_refl _, fun spell => ?_⟩
        rw [retold_ampersand spell none rfl, retold_nil]
        rfl
    | cons c after =>
        have letter : isAsciiLetter c = true := by
          rcases whole with same | whole
          · cases same
          · rw [nameRun] at whole
            split at whole
            · assumption
            · cases whole
        rw [pass, readPiece_ampersand, readAmpersand_none number none, if_pos letter]
        cases after with
        | nil =>
            refine ⟨rfl, rfl, rfl, List.suffix_cons _ _, fun spell => ?_⟩
            exact retold_letter spell letter
        | cons d after =>
            refine ⟨rfl, rfl, rfl, List.suffix_refl _, fun spell => ?_⟩
            rw [retold_ampersand spell none rfl, retold_of_not_mem spell alone]
            rfl

/-- A text without brackets is read as text and references. -/
theorem tokenize_bracketless {text : List Char} (h : Bracketless text) :
    ∃ events, tokenize text = ⟨events, none⟩ ∧
      (∀ located ∈ events, located.event.IsTextOf text) ∧
      ∀ spell, eventsRetold spell events = retold spell text := by
  obtain ⟨first, stops⟩ := pass_bracketless h 0
  obtain ⟨noEvents, rejection, mode, suffix, left⟩ := pass_unfinished (h.suffix first.suffix) stops
    (pass false .markup 0 text).offset
  have page : tokenize text =
      ⟨(pass false .markup 0 text).events ++
        (pass true .markup (pass false .markup 0 text).offset (pass false .markup 0 text).rest).remainder,
        none⟩ := by
    rw [tokenize]
    simp only [first.rejection, first.mode, rejection, noEvents, List.append_nil]
  have told := first.retold
  have texts := first.events
  have inside := suffix.trans first.suffix
  rw [page]
  generalize pass true .markup (pass false .markup 0 text).offset
    (pass false .markup 0 text).rest = two at *
  generalize pass false .markup 0 text = one at *
  -- what is left is data, unless nothing is
  cases behind : two.rest with
  | nil =>
      have nothing : two.remainder = [] := by rw [PassResult.remainder, mode, behind]
      rw [nothing, List.append_nil]
      refine ⟨one.events, rfl, texts, fun spell => ?_⟩
      rw [← told spell, left spell, behind, List.append_nil]
  | cons c rest =>
      have data : two.remainder = [⟨two.offset, .data (c :: rest)⟩] := by
        rw [PassResult.remainder, mode, behind, rejection]
      rw [data]
      rw [behind] at inside left
      refine ⟨_, rfl, ?_, fun spell => ?_⟩
      · intro located there
        rcases List.mem_append.mp there with early | last
        · exact texts located early
        · rw [List.mem_singleton.mp last]
          exact inside.isInfix
      · rw [← told spell, left spell, eventsRetold, List.flatMap_append]
        exact congrArg _ (List.append_nil (c :: rest))

end MessageCatalog.Markup
