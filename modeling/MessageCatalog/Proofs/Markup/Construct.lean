import MessageCatalog.Proofs.Markup.Event
import MessageCatalog.Proofs.Markup.Nesting
import MessageCatalog.Proofs.Markup.TagText

/-!
# MessageCatalog.Proofs.Markup.Construct -- constructs that are written again are read as they were

A comment holds no end of a comment, an instruction no bracket, a section in one bracket no such
end: that is how they were read. So what the minifier writes for one of them ends where it is meant
to and is read as the same event. Sections in two brackets are written with one, and are the
exception.
-/

namespace MessageCatalog.Markup

open MessageCatalog.Text

/-! ## What a construct is like -/

/-- The kind of a marked section. -/
def sectionKind (text : List Char) : String := nameOf (text.takeWhile isSectionNameCharacter)

/-- A marked section as it is read: it starts with its kind, and a section in one bracket does not
hold its end. -/
structure ProperSection (text : List Char) : Prop where
  letter : ∃ first others, text = first :: others ∧ isAsciiLetter first = true
  kind : sectionKind text ∈ doubleBracketSections ∨
    sectionKind text ∈ singleBracketSections ∧ ∀ i, startsSectionEnd 1 (text.drop i) = false

/-- A declaration as it is read, without its brackets: seven characters that name it, and no closing
bracket behind them. -/
structure ProperDeclaration (text : List Char) : Prop where
  long : 7 ≤ text.length
  name : lowercase (text.take 7) = "doctype".toList
  inside : '>' ∉ text.drop 7

/-- An event as it is read. -/
def Event.Proper : Event → Prop
  | .startTag name attributes _ => IsTagName name ∧ ∀ a ∈ attributes, a.Proper
  | .endTag name => IsTagName name
  | .data text => text ≠ []
  | .comment text => ∀ i, startsCommentEnd (text.drop i) = false
  | .declaration text => ProperDeclaration text
  | .marked text => ProperSection text
  | .instruction text => '>' ∉ text
  | .named _ | .numeric _ => True

/-- An event that is read again as it was when it is written: no attribute of a start tag takes a
value from what stands behind it, no blank stands at the end of the name of an end tag, and no
section has two brackets. -/
def Event.Legible : Event → Prop
  | .startTag _ attributes _ => Separate attributes
  | .endTag name => ∀ c ∈ name.toList.getLast?, isBlank c = false
  | .marked text => sectionKind text ∉ doubleBracketSections
  | _ => True

instance : DecidablePred Event.Legible := fun
  | .startTag _ attributes _ => inferInstanceAs (Decidable (Separate attributes))
  | .endTag name => Option.decidableForallMem name.toList.getLast?
  | .marked text => inferInstanceAs (Decidable (sectionKind text ∉ doubleBracketSections))
  | .data _ | .named _ | .numeric _ | .comment _ | .declaration _ | .instruction _ =>
    inferInstanceAs (Decidable True)

/-- The mode behind an event. -/
def Event.mode : Event → Mode
  | .startTag name _ selfClosing => modeBehind name selfClosing
  | _ => .markup

/-- Whether an event is text. -/
def Event.isText : Event → Bool
  | .data _ | .named _ | .numeric _ => true
  | _ => false

/-- An event as it is read once it has been written: elements without content do not close
themselves. -/
def Event.settled : Event → Event
  | .startTag name attributes selfClosing =>
    .startTag name attributes (selfClosing && !voidElements.contains name)
  | event => event

/-! ## Ends of constructs -/

theorem startsCommentEnd_cons (c d : Char) (text : List Char) :
    startsCommentEnd (c :: d :: text) =
      (c == '-' && d == '-' && (text.dropWhile isBlank).head? == some '>') := by
  by_cases first : c = '-'
  · by_cases second : d = '-'
    · subst first second
      rfl
    · have other : ('-' == d) = false := beq_false_of_ne (Ne.symm second)
      have other' : (d == '-') = false := beq_false_of_ne second
      simp [startsCommentEnd, after?, first, other, other']
  · have other : ('-' == c) = false := beq_false_of_ne (Ne.symm first)
    have other' : (c == '-') = false := beq_false_of_ne first
    simp [startsCommentEnd, after?, other, other']

/-- What ends a comment in a text ends it there when more follows. -/
theorem startsCommentEnd_append {text : List Char} (h : startsCommentEnd text = true)
    (rest : List Char) : startsCommentEnd (text ++ rest) = true := by
  match text with
  | [] | [c] => simp [startsCommentEnd, after?] at h
  | c :: d :: text =>
      rw [startsCommentEnd_cons, Bool.and_eq_true] at h
      rw [List.cons_append, List.cons_append, startsCommentEnd_cons, h.1, Bool.true_and,
        List.dropWhile_append]
      split
      · next empty =>
          rw [List.isEmpty_iff.mp empty] at h
          cases h.2
      · next more =>
          have some' : text.dropWhile isBlank ≠ [] := fun none => more (List.isEmpty_iff.mpr none)
          rw [List.head?_append, Option.or_of_isSome (List.isSome_head?.mpr some')]
          exact h.2

/-- No end of a comment starts in a text and ends in the end that is written behind it. -/
theorem startsCommentEnd_hyphens {text : List Char} (some : text ≠ [])
    (h : startsCommentEnd text = false) (rest : List Char) :
    startsCommentEnd (text ++ '-' :: '-' :: '>' :: rest) = false := by
  match text with
  | [] => exact absurd rfl some
  | [c] => simp [startsCommentEnd_cons, isBlank]
  | c :: d :: text =>
      rw [startsCommentEnd_cons, Bool.and_eq_false_iff] at h
      rw [List.cons_append, List.cons_append, startsCommentEnd_cons, Bool.and_eq_false_iff]
      refine h.imp_right fun own => ?_
      rw [List.dropWhile_append]
      split
      · rw [List.dropWhile_cons_of_neg (by decide)]
        rfl
      · next more =>
          have some' : text.dropWhile isBlank ≠ [] := fun none => more (List.isEmpty_iff.mpr none)
          rw [List.head?_append, Option.or_of_isSome (List.isSome_head?.mpr some')]
          exact own

/-- No end in one bracket starts in a text and ends in the bracket that is written behind it. -/
theorem startsSectionEnd_bracket {text : List Char} (some : text ≠ [])
    (h : startsSectionEnd 1 text = false) (rest : List Char) :
    startsSectionEnd 1 (text ++ ']' :: rest) = false := by
  cases text with
  | nil => exact absurd rfl some
  | cons c text =>
      rw [startsSectionEnd_cons, Bool.and_eq_false_iff] at h
      rw [List.cons_append, startsSectionEnd_cons, Bool.and_eq_false_iff]
      refine h.imp_right fun own => ?_
      rw [List.dropWhile_append]
      split
      · rfl
      · next more =>
          have some' : text.dropWhile isBlank ≠ [] := fun none => more (List.isEmpty_iff.mpr none)
          rw [startsSectionEnd] at own ⊢
          rw [List.head?_append, Option.or_of_isSome (List.isSome_head?.mpr some')]
          exact own

/-- A text that holds no end is enclosed by an end that is written behind it. -/
theorem enclosed?_append {stop : List Char → Bool} {text behind rest : List Char}
    (goes : ∀ front, front ≠ [] → stop front = false → stop (front ++ behind) = false)
    (h : ∀ i, stop (text.drop i) = false) (stops : stop behind = true)
    (after : afterBracket behind = rest) :
    enclosed? stop (text ++ behind) = some (text, rest) := by
  -- in front of the end that is written, none starts in the text and ends behind it
  have none : ∀ i < text.length, stop ((text ++ behind).drop i) = false := by
    intro i less
    rw [List.drop_append_of_le_length (Nat.le_of_lt less)]
    refine goes _ (fun empty => ?_) (h i)
    have := List.drop_eq_nil_iff.mp empty
    omega
  rw [enclosed?, breakWhere_append none stops]
  exact congrArg (fun left => some (text, left)) after

/-! ## Constructs that are written again -/

variable (final : Bool) {text : List Char}

theorem readPiece_comment (h : ∀ i, startsCommentEnd (text.drop i) = false) (rest : List Char) :
    readPiece final .markup ('<' :: '!' :: '-' :: '-' :: (text ++ '-' :: '-' :: '>' :: rest)) =
      .upTo ('<' :: '!' :: '-' :: '-' :: (text ++ '-' :: '-' :: '>' :: rest)) rest
        (some (.comment text)) .markup := by
  have read : enclosed? startsCommentEnd (text ++ '-' :: '-' :: '>' :: rest) = some (text, rest) :=
    enclosed?_append (fun front some own => startsCommentEnd_hyphens some own rest) h rfl rfl
  rw [readPiece_bracket, readBracket, List.drop_succ_cons, List.drop_zero]
  simp only [show isAsciiLetter '!' = false from rfl, show ('!' == '/') = false from rfl,
    Bool.false_eq_true, if_false, startsWith, after?, beq_self_eq_true, if_true, Option.isSome_some,
    List.drop_succ_cons, List.drop_zero, read]

theorem readPiece_instruction (h : '>' ∉ text) (rest : List Char) :
    readPiece final .markup ('<' :: '?' :: (text ++ '>' :: rest)) =
      .upTo ('<' :: '?' :: (text ++ '>' :: rest)) rest (some (.instruction text)) .markup := by
  rw [readPiece_bracket, readBracket, List.drop_succ_cons, List.drop_zero]
  simp only [show isAsciiLetter '?' = false from rfl, show ('?' == '/') = false from rfl,
    Bool.false_eq_true, if_false, startsWith, after?, show ('!' == '?') = false from rfl,
    Option.isSome_none, beq_self_eq_true, if_true, upToBracket?_append h]

/-- A bracket and an exclamation mark start a declaration, unless two hyphens follow. -/
theorem readBracket_declaration {c : Char} (other : c ≠ '-') (rest : List Char) :
    readBracket final ('<' :: '!' :: c :: rest) =
      readDeclaration final ('<' :: '!' :: c :: rest) := by
  have hyphen : ('-' == c) = false := beq_false_of_ne (Ne.symm other)
  rw [readBracket, List.drop_succ_cons, List.drop_zero]
  simp only [show isAsciiLetter '!' = false from rfl, show ('!' == '/') = false from rfl,
    show ('!' == '?') = false from rfl, Bool.false_eq_true, if_false, startsWith, after?,
    beq_self_eq_true, if_true, hyphen, Option.isSome_none]

theorem readPiece_declaration (h : ProperDeclaration text) (rest : List Char) :
    readPiece final .markup ('<' :: '!' :: (text ++ '>' :: rest)) =
      .upTo ('<' :: '!' :: (text ++ '>' :: rest)) rest (some (.declaration text)) .markup := by
  obtain ⟨c, more, split⟩ := List.exists_cons_of_ne_nil
    (List.ne_nil_of_length_pos (Nat.lt_of_lt_of_le (by decide) h.long))
  -- the name does not start with a hyphen or a bracket, which are small already
  have first : c ≠ '-' ∧ c ≠ '[' := by
    have name := h.name
    rw [split, List.take_succ_cons] at name
    constructor
    · rintro rfl
      have small : (lowercase ('-' :: more.take 6)).head? = some '-' := rfl
      rw [name] at small
      exact absurd small (by decide)
    · rintro rfl
      have small : (lowercase ('[' :: more.take 6)).head? = some '[' := rfl
      rw [name] at small
      exact absurd small (by decide)
  have taken : (text ++ '>' :: rest).take 7 = text.take 7 := List.take_append_of_le_length h.long
  have dropped : (text ++ '>' :: rest).drop 7 = text.drop 7 ++ '>' :: rest :=
    List.drop_append_of_le_length h.long
  have start : ∀ behind, readPiece final .markup ('<' :: '!' :: c :: behind) =
      readDeclaration final ('<' :: '!' :: c :: behind) :=
    fun behind => readBracket_declaration final first.1 behind
  have read : readDeclaration final ('<' :: '!' :: (text ++ '>' :: rest)) =
      .upTo ('<' :: '!' :: (text ++ '>' :: rest)) rest (some (.declaration text)) .markup := by
    rw [readDeclaration, List.drop_succ_cons, List.drop_succ_cons, List.drop_zero]
    split
    · next same =>
        rw [split, List.cons_append] at same
        exact absurd (List.cons.inj same).1 first.2
    · rw [taken, dropped, h.name, upToBracket?_append h.inside]
      simp
  rw [split] at read ⊢
  exact (start _).trans read

theorem readPiece_section (h : ProperSection text)
    (single : sectionKind text ∉ doubleBracketSections) (rest : List Char) :
    readPiece final .markup ('<' :: '!' :: '[' :: (text ++ ']' :: '>' :: rest)) =
      .upTo ('<' :: '!' :: '[' :: (text ++ ']' :: '>' :: rest)) rest (some (.marked text))
        .markup := by
  obtain ⟨c, more, split, letter⟩ := h.letter
  obtain ⟨kind, goes⟩ := h.kind.resolve_left single
  have ends : enclosed? (startsSectionEnd 1) (text ++ ']' :: '>' :: rest) = some (text, rest) :=
    enclosed?_append (fun front some own => startsSectionEnd_bracket some own _) goes rfl rfl
  have nameLetter : isSectionNameCharacter c = true := by
    simp [isSectionNameCharacter, isAsciiLetter_alphanumeric letter]
  have whole : nameOf (c :: more.takeWhile isSectionNameCharacter) = sectionKind text := by
    rw [sectionKind, split, List.takeWhile_cons_of_pos nameLetter]
  have span : (more ++ ']' :: '>' :: rest).takeWhile isSectionNameCharacter =
        more.takeWhile isSectionNameCharacter ∧
      (more ++ ']' :: '>' :: rest).dropWhile isSectionNameCharacter =
        more.dropWhile isSectionNameCharacter ++ ']' :: '>' :: rest := by
    obtain ⟨own, inside, stop⟩ := longestRun_takeWhile isSectionNameCharacter more
    refine longestRun_iff.mp ⟨?_, inside, ?_⟩
    · rw [← List.append_assoc, ← own]
    · rw [List.head?_append]
      intro d first
      cases tail : (more.dropWhile isSectionNameCharacter).head? with
      | none =>
          rw [tail] at first
          cases first
          decide
      | some e =>
          rw [tail] at first
          cases first
          exact stop d tail
  -- the blanks behind the name end before the bracket that ends the section
  have long : ¬(c :: (more ++ ']' :: '>' :: rest)).length ≤
      (c :: more.takeWhile isSectionNameCharacter).length +
        ((more.dropWhile isSectionNameCharacter ++ ']' :: '>' :: rest).takeWhile
          isBlank).length := by
    have parts := congrArg List.length
      (List.takeWhile_append_dropWhile (p := isSectionNameCharacter) (l := more))
    have blanks : ((more.dropWhile isSectionNameCharacter ++ ']' :: '>' :: rest).takeWhile
        isBlank).length ≤ (more.dropWhile isSectionNameCharacter).length := by
      rw [List.takeWhile_append]
      split
      · simp [isBlank]
      · exact (List.takeWhile_prefix _).length_le
    rw [List.length_append] at parts
    simp only [List.length_cons, List.length_append]
    omega
  have other : doubleBracketSections.contains (sectionKind text) = false := by simpa using single
  have known : singleBracketSections.contains (sectionKind text) = true := by simpa using kind
  have read : readSection final ('<' :: '!' :: '[' :: (text ++ ']' :: '>' :: rest)) =
      .upTo ('<' :: '!' :: '[' :: (text ++ ']' :: '>' :: rest)) rest (some (.marked text))
        .markup := by
    rw [readSection, List.drop_succ_cons, List.drop_succ_cons, List.drop_succ_cons, List.drop_zero]
    rw [split] at ends other known whole ⊢
    rw [List.cons_append] at ends ⊢
    simp only [letter, if_true, span, if_neg long, whole, other, known, Bool.false_eq_true,
      if_false, ends]
  have hyphen : '[' ≠ '-' := by decide
  have start : readDeclaration final ('<' :: '!' :: '[' :: (text ++ ']' :: '>' :: rest)) =
      readSection final ('<' :: '!' :: '[' :: (text ++ ']' :: '>' :: rest)) := rfl
  exact (readBracket_declaration final hyphen _).trans (start.trans read)

/-! ## Any construct -/

theorem modeBehind_settled (name : String) (selfClosing : Bool) :
    modeBehind name (selfClosing && !voidElements.contains name) = modeBehind name selfClosing := by
  have apart : ∀ raw ∈ rawTextElements, voidElements.contains raw = false := by decide
  cases void : voidElements.contains name with
  | false => rw [Bool.not_false, Bool.and_true]
  | true =>
      have other : rawTextElements.contains name = false := by
        rw [← Bool.not_eq_true, List.contains_iff_mem]
        intro raw
        rw [apart name raw] at void
        cases void
      rw [modeBehind, modeBehind, other, Bool.and_false, Bool.and_false]

/-- What the minifier writes for a construct is read as that construct, whatever follows. -/
theorem readPiece_pieceOf {options : MinifyOptions} {kept : Bool} {event : Event}
    (proper : event.Proper) (legible : event.Legible) (construct : event.isText = false)
    {piece : Piece} (h : pieceOf options kept event = some piece) (rest : List Char) :
    readPiece final .markup (piece.chars ++ rest) =
      .upTo (piece.chars ++ rest) rest (some event.settled) event.mode := by
  cases event with
  | data _ | named _ | numeric _ => cases construct
  | startTag name attributes selfClosing =>
      cases h
      have read := readPiece_writeStartTag final proper.1 proper.2 legible selfClosing rest
      rwa [modeBehind_settled] at read
  | endTag name =>
      rw [pieceOf] at h
      split at h
      · cases h
      · cases h
        have read := readPiece_endTag final proper legible rest
        simpa [Piece.chars, Event.settled, Event.mode] using read
  | comment text =>
      rw [pieceOf] at h
      split at h
      · cases h
      · cases h
        have read := readPiece_comment final proper rest
        simpa [Piece.chars, Event.settled, Event.mode] using read
  | declaration text =>
      cases h
      have read := readPiece_declaration final proper rest
      simpa [Piece.chars, Event.settled, Event.mode] using read
  | marked text =>
      cases h
      have read := readPiece_section final proper legible rest
      simpa [Piece.chars, Event.settled, Event.mode] using read
  | instruction text =>
      cases h
      have read := readPiece_instruction final proper rest
      simpa [Piece.chars, Event.settled, Event.mode] using read

/-- A construct is written as it is settled. -/
theorem pieceOf_settled (options : MinifyOptions) (kept : Bool) (event : Event) :
    pieceOf options kept event.settled = pieceOf options kept event := by
  cases event with
  | startTag name attributes selfClosing =>
      have same : (selfClosing && !voidElements.contains name && !voidElements.contains name) =
          (selfClosing && !voidElements.contains name) := by
        rw [Bool.and_assoc, Bool.and_self]
      rw [Event.settled, pieceOf, pieceOf, writeStartTag, writeStartTag, same]
  | _ => rfl

/-- A construct has the mark that it has as it is settled. -/
theorem mark?_settled (event : Event) : event.settled.mark? = event.mark? := by
  cases event with
  | startTag name attributes selfClosing =>
      rw [Event.settled]
      cases selfClosing with
      | false => rfl
      | true =>
          cases void : voidElements.contains name with
          | false => rw [Bool.not_false, Bool.and_true]
          | true =>
              rw [Bool.not_true, Bool.and_false]
              exact if_pos void
  | _ => rfl

end MessageCatalog.Markup
