import MessageCatalog.Proofs.Markup.Construct
import MessageCatalog.Proofs.Markup.Lossless
import MessageCatalog.Proofs.Markup.Minified

/-!
# MessageCatalog.Proofs.Markup.Legible -- text that is read again as text

A text is legible when no bracket in it starts markup and no ampersand starts anything but a whole
reference. In front of a tag or at the end of a fragment, legible text is read as text and
references, and what the minifier makes of those is the text with its white space collapsed. A
bracket or an ampersand at the very end of a fragment is left over by both passes, which makes it
data all the same.
-/

namespace MessageCatalog.Markup

open MessageCatalog.Text

/-! ## Legible text -/

/-- A character that starts markup behind an opening bracket. -/
def startsMarkup (c : Char) : Bool := isAsciiLetter c || c == '/' || c == '!' || c == '?'

/-- The digits of a numeric reference, with the mark of hexadecimal ones. -/
def IsReferenceDigits (digits : List Char) : Prop :=
  (digits ≠ [] ∧ ∀ c ∈ digits, isAsciiDigit c = true) ∨
    ∃ mark hex, digits = mark :: hex ∧ (mark = 'x' ∨ mark = 'X') ∧ hex ≠ [] ∧
      ∀ c ∈ hex, isHexDigit c = true

/-- Text of characters, of whole references, of brackets that start no markup and of ampersands that
start no reference. -/
inductive LegibleText : List Char → Prop
  | nil : LegibleText []
  | plain {c : Char} {rest : List Char} :
      startsConstruct c = false → LegibleText rest → LegibleText (c :: rest)
  | less {rest : List Char} :
      (∀ c ∈ rest.head?, startsMarkup c = false) → LegibleText rest → LegibleText ('<' :: rest)
  | ampersand {rest : List Char} :
      (∀ c ∈ rest.head?, isAsciiLetter c = false ∧ c ≠ '#') → LegibleText rest →
        LegibleText ('&' :: rest)
  | named {name rest : List Char} :
      IsReferenceName name → LegibleText rest → LegibleText ('&' :: (name ++ ';' :: rest))
  | numeric {digits rest : List Char} :
      IsReferenceDigits digits → LegibleText rest →
        LegibleText ('&' :: '#' :: (digits ++ ';' :: rest))

theorem LegibleText.afterPlain {text : List Char} (h : LegibleText text) :
    LegibleText (afterPlain text) := by
  have stop : ∀ (c : Char) (rest : List Char), startsConstruct c = true →
      Markup.afterPlain (c :: rest) = c :: rest := by
    intro c rest starts
    rw [Markup.afterPlain, List.dropWhile_cons_of_neg (by simp [starts])]
  induction h with
  | nil => exact .nil
  | plain plain _ ih =>
      rw [Markup.afterPlain, List.dropWhile_cons_of_pos (by simp [plain])]
      exact ih
  | less next rest _ =>
      rw [stop _ _ rfl]
      exact .less next rest
  | ampersand next rest _ =>
      rw [stop _ _ rfl]
      exact .ampersand next rest
  | named isName rest _ =>
      rw [stop _ _ rfl]
      exact .named isName rest
  | numeric isDigits rest _ =>
      rw [stop _ _ rfl]
      exact .numeric isDigits rest

/-! ## References -/

/-- No white space belongs to a class that has none of its five characters. -/
theorem not_markupSpace {inClass : Char → Bool}
    (none : [' ', '\t', '\n', '\r', '\x0c'].any inClass = false) {c : Char}
    (inside : inClass c = true) : isMarkupSpace c = false := by
  rw [← Bool.not_eq_true]
  intro space
  simp only [isMarkupSpace, Bool.or_eq_true, beq_iff_eq] at space
  refine List.any_eq_false.mp none c ?_ inside
  simp only [List.mem_cons, List.not_mem_nil]
  tauto

theorem IsReferenceName.solid {name : List Char} (h : IsReferenceName name) :
    ∀ c ∈ name, isMarkupSpace c = false := by
  obtain ⟨first, others, rfl, letter, inside⟩ := h
  exact List.forall_mem_cons.mpr ⟨not_markupSpace (by decide) letter,
    fun c there => not_markupSpace (by decide) (inside c there)⟩

theorem IsReferenceDigits.solid {digits : List Char} (h : IsReferenceDigits digits) :
    ∀ c ∈ digits, isMarkupSpace c = false := by
  rcases h with ⟨-, all⟩ | ⟨mark, hex, rfl, isMark, -, all⟩
  · exact fun c there => not_markupSpace (by decide) (all c there)
  · refine List.forall_mem_cons.mpr ⟨?_, fun c there => not_markupSpace (by decide) (all c there)⟩
    rcases isMark with rfl | rfl <;> rfl

theorem readPiece_named (final : Bool) {name : List Char} (isName : IsReferenceName name)
    (rest : List Char) :
    readPiece final .markup ('&' :: (name ++ ';' :: rest)) =
      .upTo ('&' :: (name ++ ';' :: rest)) rest (some (.named name)) .markup := by
  have number : (name ++ ';' :: rest).head? ≠ some '#' := by
    obtain ⟨first, others, rfl, letter, -⟩ := isName
    rintro ⟨⟩
    cases letter
  have size : semicolonSize ((name ++ ';' :: rest).drop name.length) = 1 := by
    rw [List.drop_left]
    rfl
  rw [readPiece_ampersand, readAmpersand_named number (readReferenceName_closed isName rest), size]
  simp only [Outcome.upTo, List.length_cons, List.length_append]
  congr 1
  omega

theorem readReferenceDigits_digits {digits : List Char} (isDigits : IsReferenceDigits digits)
    (rest : List Char) : readReferenceDigits (digits ++ ';' :: rest) = some digits := by
  have semicolon : isHexDigit ';' = false := by decide
  rcases isDigits with ⟨some', all⟩ | ⟨mark, hex, rfl, isMark, some', all⟩
  · obtain ⟨first, others, rfl⟩ := List.exists_cons_of_ne_nil some'
    obtain ⟨taken, dropped⟩ := longestRun_iff.mp
      (⟨rfl, all, by simp [isAsciiDigit]⟩ :
        LongestRun isAsciiDigit (first :: others ++ ';' :: rest) (first :: others) (';' :: rest))
    have digit := all first List.mem_cons_self
    rw [List.cons_append] at taken dropped ⊢
    unfold readReferenceDigits
    split
    next marks digits' rest' read =>
      split at read
      · next same =>
          rw [(List.cons.inj same).1] at digit
          cases digit
      · next same =>
          rw [(List.cons.inj same).1] at digit
          cases digit
      · rw [taken, dropped] at read
        cases read
        simp [semicolon]
  · obtain ⟨taken, dropped⟩ := longestRun_iff.mp
      (⟨rfl, all, by simp [semicolon]⟩ :
        LongestRun isHexDigit (hex ++ ';' :: rest) hex (';' :: rest))
    -- either letter marks hexadecimal digits
    rcases isMark with rfl | rfl <;>
    · rw [List.cons_append, readReferenceDigits]
      simp [taken, dropped, semicolon, some']

theorem readPiece_numeric (final : Bool) {digits : List Char} (isDigits : IsReferenceDigits digits)
    (rest : List Char) :
    readPiece final .markup ('&' :: '#' :: (digits ++ ';' :: rest)) =
      .upTo ('&' :: '#' :: (digits ++ ';' :: rest)) rest (some (.numeric digits)) .markup := by
  have size : semicolonSize ((digits ++ ';' :: rest).drop digits.length) = 1 := by
    rw [List.drop_left]
    rfl
  rw [readPiece_ampersand]
  simp only [readAmpersand, List.drop_succ_cons, List.drop_zero,
    readReferenceDigits_digits isDigits, size, Outcome.upTo, List.length_cons, List.length_append]
  congr 1
  omega

theorem readPiece_less (final : Bool) {c : Char} (other : startsMarkup c = false)
    (rest : List Char) :
    readPiece final .markup ('<' :: c :: rest) =
      .upTo ('<' :: c :: rest) (c :: rest) (some (.data ['<'])) .markup := by
  simp only [startsMarkup, Bool.or_eq_false_iff] at other
  obtain ⟨⟨⟨letter, slash⟩, mark⟩, question⟩ := other
  have declaration : startsWith ['!', '-', '-'] (c :: rest) = false := by
    have apart : ('!' == c) = false := by
      rw [Bool.beq_comm]
      exact mark
    simp [startsWith, after?, apart]
  rw [readPiece_bracket, readBracket, List.drop_succ_cons, List.drop_zero]
  simp only [letter, slash, mark, question, declaration, Bool.false_eq_true, if_false]
  simp [Outcome.upTo]

theorem readPiece_loose (final : Bool) {c : Char} (letter : isAsciiLetter c = false)
    (mark : c ≠ '#') (rest : List Char) :
    readPiece final .markup ('&' :: c :: rest) =
      .upTo ('&' :: c :: rest) (c :: rest) (some (.data ['&'])) .markup := by
  have number : (c :: rest).head? ≠ some '#' := fun same => mark (Option.some.inj same)
  have none : readReferenceName (c :: rest) = none := by
    rw [readReferenceName, letter]
    rfl
  rw [readPiece_ampersand, readAmpersand_none number none, letter]
  simp [Outcome.upTo]

/-! ## Reading in pieces -/

/-- Whether white space counts inside some open elements. -/
def keepsSpace (open' : List String) : Bool := open'.any preservedElements.contains

theorem preserves_eq_keepsSpace (elements : List OpenElement) :
    preserves elements = keepsSpace (openNames elements) := by
  rw [preserves, keepsSpace, openNames, List.any_map]
  rfl

/-- Open elements without the places of their start tags. -/
def unplaced (open' : List String) : List OpenElement := open'.map fun name => ⟨name, 0⟩

theorem openNames_unplaced (open' : List String) : openNames (unplaced open') = open' := by
  rw [openNames, unplaced, List.map_map]
  exact List.map_id _

/-- The data that both passes leave over. -/
def leftOver (offset : Nat) (tail : List Char) : List Located :=
  if tail = [] then [] else [⟨offset, .data tail⟩]

/-- Behind some open elements a text is read as events with these marks, of which these pieces are
made. Nothing of it is left over but a loose bracket or ampersand at its end. -/
def Reads (options : MinifyOptions) (open' : List String) (text : List Char) (marks : List Mark)
    (pieces : List Piece) : Prop :=
  ∀ offset, ∃ events last tail,
    pass false .markup offset text = ⟨events, .markup, last, tail, none⟩ ∧
      (tail = [] ∨ tail = ['<'] ∨ tail = ['&']) ∧
      marksOf (events ++ leftOver last tail) = marks ∧
      ∀ elements, openNames elements = open' →
        joinTexts (piecesOf options elements (events ++ leftOver last tail)) = pieces

variable {options : MinifyOptions} {open' : List String} {marks : List Mark} {pieces : List Piece}
  {text more : List Char}

theorem reads_nil : Reads options open' [] [] [] := by
  intro offset
  refine ⟨[], offset, [], ?_, Or.inl rfl, rfl, fun _ _ => rfl⟩
  rw [pass]

/-- A bracket or an ampersand at the end is left over, and is data. -/
theorem reads_loose {c : Char} (loose : c = '<' ∨ c = '&') :
    Reads options open' [c] [] [.text [c] (keepsSpace open')] := by
  intro offset
  have stop : readPiece false .markup [c] = .stop [] := by
    rcases loose with rfl | rfl <;> rfl
  refine ⟨[], offset, [c], ?_, Or.inr (by simpa using loose), rfl, fun elements names => ?_⟩
  · rw [pass, stop]
    rfl
  · have solid : collapse [c] = [c] := by
      rcases loose with rfl | rfl <;> rfl
    rw [← names, ← preserves_eq_keepsSpace]
    simp [leftOver, piecesOf, pieceOf, joinTexts, joinPiece, solid]

/-- Text in front of what is read. -/
theorem Reads.chunk {chunk : List Char} {event : Event} {chars : List Char} (some' : chunk ≠ [])
    (read : readPiece false .markup (chunk ++ more) =
      .upTo (chunk ++ more) more (some event) .markup)
    (unmarked : event.mark? = none)
    (piece : pieceOf options (keepsSpace open') event = some (.text chars (keepsSpace open')))
    (nonempty : chars ≠ []) (h : Reads options open' more marks pieces) :
    Reads options open' (chunk ++ more) marks (layText (keepsSpace open') chars pieces) := by
  intro offset
  obtain ⟨events, last, tail, passed, left, marked, made⟩ := h (offset + chunk.length)
  refine ⟨⟨offset, event⟩ :: events, last, tail, ?_, left, ?_, fun elements names => ?_⟩
  · rw [pass_upTo some' read, passed]
    rfl
  · rw [List.cons_append, marksOf_cons, unmarked, marked]
    rfl
  · have stays : nest elements ⟨offset, event⟩ = .ok elements := by
      rw [nest_eq_mark, unmarked]
    rw [List.cons_append, piecesOf, stays, preserves_eq_keepsSpace, names, piece,
      layText_of_ne nonempty, ← made elements names]
    rfl

/-! ## Legible text -/

theorem squash_append {kept : Bool} (starts : ∀ c ∈ more.head?, isMarkupSpace c = false)
    (text : List Char) :
    squash options kept (text ++ more) = squash options kept text ++ squash options kept more := by
  simp only [squash]
  split
  · exact collapseFrom_append starts false
  · rfl

theorem squash_solid {kept : Bool} (some' : text ≠ [])
    (solid : ∀ c ∈ text, isMarkupSpace c = false) (more : List Char) :
    squash options kept (text ++ more) = text ++ squash options kept more := by
  simp only [squash]
  split
  · exact collapseFrom_solid some' solid false more
  · rfl

/-- Nothing is read in no text. -/
theorem Reads.of_nil (h : Reads options open' [] marks pieces) : marks = [] ∧ pieces = [] := by
  obtain ⟨events, last, tail, passed, -, marked, made⟩ := h 0
  rw [pass] at passed
  cases passed
  exact ⟨marked.symm, (made _ (openNames_unplaced open')).symm⟩

/-- A bracket or an ampersand that starts nothing in front of what is read. -/
theorem Reads.loose {c : Char} (loose : c = '<' ∨ c = '&')
    (read : ∀ d others, more = d :: others →
      readPiece false .markup (c :: d :: others) =
        .upTo (c :: d :: others) (d :: others) (some (.data [c])) .markup)
    (h : Reads options open' more marks pieces) :
    Reads options open' (c :: more) marks (layText (keepsSpace open') [c] pieces) := by
  have solid : collapse [c] = [c] := by
    rcases loose with rfl | rfl <;> rfl
  cases more with
  | nil =>
      obtain ⟨rfl, rfl⟩ := h.of_nil
      exact reads_loose loose
  | cons d others =>
      have piece : pieceOf options (keepsSpace open') (.data [c]) =
          some (.text [c] (keepsSpace open')) := by
        simp [pieceOf, solid]
      have some' : [c] ≠ [] := List.cons_ne_nil c []
      exact h.chunk some' (read d others rfl) rfl piece some'

/-- A run of characters of text is read as one piece of data. -/
theorem readPiece_run (final : Bool) {run behind : List Char} (some' : run ≠ [])
    (plain : ∀ c ∈ run, startsConstruct c = false)
    (stop : ∀ c ∈ behind.head?, startsConstruct c = true) :
    readPiece final .markup (run ++ behind) =
      .upTo (run ++ behind) behind (some (.data run)) .markup := by
  obtain ⟨c, others, rfl⟩ := List.exists_cons_of_ne_nil some'
  have first := plain c List.mem_cons_self
  have less : c ≠ '<' := by rintro rfl; cases first
  have ampersand : c ≠ '&' := by rintro rfl; cases first
  have left : (c :: others ++ behind).dropWhile (fun d => !startsConstruct d) = behind :=
    (longestRun_iff.mp ⟨rfl, by simpa using plain, by simpa using stop⟩).2
  have taken : (c :: others ++ behind).take ((c :: others ++ behind).length - behind.length) =
      c :: others := by
    rw [List.length_append, Nat.add_sub_cancel, List.take_left]
  rw [List.cons_append] at left taken ⊢
  rw [readPiece, left, Outcome.dataUpTo, taken]
  · rintro _ same
    exact less (List.cons.inj same).1
  · rintro _ same
    exact ampersand (List.cons.inj same).1

/-- The first character of a text and what follows it is one of the text, or the text is empty. -/
theorem head?_append_mem {c : Char} (there : c ∈ (text ++ more).head?) :
    c ∈ text.head? ∨ text = [] ∧ c ∈ more.head? := by
  cases text with
  | nil => exact Or.inr ⟨rfl, there⟩
  | cons d rest => exact Or.inl there

/-- What holds of the first character of a text and of what follows it. -/
theorem head_of_append {holds : Char → Prop} (own : ∀ c ∈ text.head?, holds c)
    (behind : ∀ c ∈ more.head?, holds c) {d : Char} {others : List Char}
    (same : text ++ more = d :: others) : holds d := by
  rcases head?_append_mem (same ▸ rfl : d ∈ (text ++ more).head?) with there | ⟨-, there⟩
  · exact own d there
  · exact behind d there

/-- Legible text in front of a tag or of the end is read as text, and its white space collapses. -/
theorem Reads.legible (legible : LegibleText text) (ends : ∀ c ∈ more.head?, c = '<')
    (h : Reads options open' more marks pieces) :
    Reads options open' (text ++ more) marks
      (layText (keepsSpace open') (squash options (keepsSpace open') text) pieces) := by
  -- on the length of the text, for a whole run of characters is read at once
  induction size : text.length using Nat.strongRecOn generalizing text with
  | ind n ih =>
      -- a part without white space in front of legible text
      have part : ∀ {chunk rest : List Char}, chunk ≠ [] → (∀ c ∈ chunk, isMarkupSpace c = false) →
          layText (keepsSpace open') chunk (layText (keepsSpace open')
            (squash options (keepsSpace open') rest) pieces) =
          layText (keepsSpace open') (squash options (keepsSpace open') (chunk ++ rest))
            pieces := by
        intro chunk rest some' solid
        rw [layText_layText, squash_solid some' solid]
      cases legible with
      | nil =>
          rw [squash_eq_nil.mpr rfl]
          exact h
      | @plain c rest plain legible =>
          have split : c :: rest = (c :: plainRun rest) ++ afterPlain rest := by
            rw [List.cons_append, plainRun, afterPlain, List.takeWhile_append_dropWhile]
          have stop : ∀ d ∈ (afterPlain rest).head?, startsConstruct d = true := by
            simpa [afterPlain] using (longestRun_takeWhile (fun d => !startsConstruct d) rest).2.2
          have plain' : ∀ d ∈ c :: plainRun rest, startsConstruct d = false := by
            refine List.forall_mem_cons.mpr ⟨plain, fun d there => ?_⟩
            simpa using List.mem_takeWhile_imp there
          have stop' : ∀ d ∈ (afterPlain rest ++ more).head?, startsConstruct d = true := by
            intro d there
            rcases head?_append_mem there with own | ⟨-, behind⟩
            · exact stop d own
            · rw [ends d behind]
              rfl
          have solid : ∀ d ∈ (afterPlain rest).head?, isMarkupSpace d = false := fun d there =>
            not_markupSpace (by decide) (stop d there)
          -- what is behind the run does not start with white space, so the run collapses alone
          have shorter : (afterPlain rest).length < n := by
            have := (List.dropWhile_suffix (l := rest) fun d => !startsConstruct d).length_le
            rw [← size, List.length_cons]
            exact Nat.lt_succ_of_le this
          have later := ih _ shorter legible.afterPlain rfl
          have some' : squash options (keepsSpace open') (c :: plainRun rest) ≠ [] :=
            mt squash_eq_nil.mp (List.cons_ne_nil _ _)
          have own := later.chunk (List.cons_ne_nil _ _)
            (readPiece_run false (List.cons_ne_nil _ _) plain' stop') rfl rfl some'
          rw [split, squash_append solid, ← layText_layText, List.append_assoc]
          exact own
      | @less rest next legible =>
          have later := ih rest.length (by rw [← size]; simp) legible rfl
          have read := later.loose (Or.inl rfl) fun d others same => by
            have other := head_of_append next (fun e there => by rw [ends e there]; rfl) same
            exact readPiece_less false other others
          rw [part (List.cons_ne_nil _ _) (by simp [isMarkupSpace])] at read
          exact read
      | @ampersand rest next legible =>
          have later := ih rest.length (by rw [← size]; simp) legible rfl
          have read := later.loose (Or.inr rfl) fun d others same => by
            have other := head_of_append next (fun e there => by rw [ends e there]; decide) same
            exact readPiece_loose false other.1 other.2 others
          rw [part (List.cons_ne_nil _ _) (by simp [isMarkupSpace])] at read
          exact read
      | @named name rest isName legible =>
          have later := ih rest.length (by rw [← size]; simp; omega) legible rfl
          have some' : '&' :: name ++ [';'] ≠ [] := by simp
          have solid : ∀ c ∈ '&' :: name ++ [';'], isMarkupSpace c = false := by
            simpa [isMarkupSpace, or_imp, forall_and] using isName.solid
          have same : ∀ behind : List Char, '&' :: (name ++ ';' :: behind) =
              ('&' :: name ++ [';']) ++ behind := by simp
          have read := readPiece_named false isName (rest ++ more)
          rw [same] at read
          have own := later.chunk some' read rfl rfl some'
          rw [part some' solid] at own
          rw [same, List.append_assoc]
          exact own
      | @numeric digits rest isDigits legible =>
          have later := ih rest.length (by rw [← size]; simp; omega) legible rfl
          have some' : '&' :: '#' :: digits ++ [';'] ≠ [] := by simp
          have solid : ∀ c ∈ '&' :: '#' :: digits ++ [';'], isMarkupSpace c = false := by
            simpa [isMarkupSpace, or_imp, forall_and] using isDigits.solid
          have same : ∀ behind : List Char, '&' :: '#' :: (digits ++ ';' :: behind) =
              ('&' :: '#' :: digits ++ [';']) ++ behind := by simp
          have read := readPiece_numeric false isDigits (rest ++ more)
          rw [same] at read
          have own := later.chunk some' read rfl rfl some'
          rw [part some' solid] at own
          rw [same, List.append_assoc]
          exact own

end MessageCatalog.Markup
