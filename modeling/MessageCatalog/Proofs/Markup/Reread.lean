import MessageCatalog.Proofs.Markup.Spelled

/-!
# MessageCatalog.Proofs.Markup.Reread -- pieces that are read again

Pieces of a page stay so when they are trimmed. Where their texts are legible they are read again as
the same constructs and the same texts, the white space of each text collapsed as a whole: a text
that was put together of parts is read in one.
-/

namespace MessageCatalog.Markup

open MessageCatalog.Text

variable {options : MinifyOptions} {open' : List String} {marks : List Mark} {pieces : List Piece}
  {previous : Option Piece}

/-! ## Trimming -/

/-- Where pieces stand apart from a text in front of them, they do when they are trimmed. -/
theorem StartsApart.trim (apart : StartsApart pieces) (previous : Option Piece) :
    StartsApart (trimPieces previous pieces) := by
  intro chars kept
  rw [head?_trimPieces (fun more => apart more false)]
  exact apart chars kept

/-- Raw text is not trimmed. -/
theorem trimPieces_layText (chars : List Char) (element : String) (rest : List Piece) :
    trimPieces previous (layText true chars (endPiece element :: rest)) =
      layText true chars (endPiece element :: trimPieces (some (endPiece element)) rest) := by
  have apart : ∀ behind, StartsApart (endPiece element :: behind) :=
    startsApart_cons (by simp [endPiece])
  have tag : ∀ before, trimPieces before (endPiece element :: rest) =
      endPiece element :: trimPieces (some (endPiece element)) rest :=
    fun before => trimPieces_of_ne (by simp [endPiece]) before rest
  by_cases none : chars = []
  · subst none
    exact tag previous
  · rw [layText_of_ne none, layText_of_ne none, joinPiece_of_head _ (apart _),
      joinPiece_of_head _ (apart _), trimPieces_of_ne (by simp), tag]

/-- Pieces of a page are pieces of a page when they are trimmed. -/
theorem Spelled.trim (h : Spelled options open' marks pieces) (previous : Option Piece) :
    Spelled options open' marks (trimPieces previous pieces) := by
  induction h generalizing previous with
  | nil => exact .nil
  | @text open' marks chars rest some' apart _ ih =>
      have own := @Spelled.text options open' marks
      cases kept : keepsSpace open' with
      | true =>
          rw [kept] at own
          rw [trimPieces_of_ne (by simp)]
          exact own some' (StartsApart.trim apart _) (ih _)
      | false =>
          rw [kept] at own
          rw [trimPieces_uncounted]
          split
          · exact ih _
          · next left => exact own left (StartsApart.trim apart _) (ih _)
  | construct proper legible construct markup piece _ ih =>
      -- what stands in front of a construct or behind it has no part in what it is
      rw [trimPieces_of_ne fun chars => (pieceOf_construct construct piece).1 chars false]
      exact .construct proper legible construct markup piece (ih _)
  | raw proper legible raw noClosing _ ih =>
      rw [trimPieces_of_ne (by simp), trimPieces_layText]
      exact .raw proper legible raw noClosing (ih _)

/-! ## Legible pieces -/

/-- Whether raw text stands behind a piece: it is the start tag of an element with raw text, and
does not close itself. -/
def Piece.opensRaw : Piece → Bool
  | .tag chars name =>
    rawTextElements.contains name && !startsWith ['<', '/'] chars && !endsWith ['/', '>'] chars
  | _ => false

/-- Text that is not raw is legible. The first piece stands behind `previous`. -/
def Readable : (previous : Option Piece) → List Piece → Prop
  | _, [] => True
  | previous, piece :: rest =>
    (∀ chars kept, piece = .text chars kept →
      (∃ tag ∈ previous, tag.opensRaw = true) ∨ LegibleText chars) ∧ Readable (some piece) rest

/-- No raw text stands behind a construct that markup follows. -/
theorem opensRaw_of_pieceOf {kept : Bool} {event : Event} (markup : event.mode = .markup)
    {piece : Piece} (h : pieceOf options kept event = some piece) : piece.opensRaw = false := by
  cases event with
  | startTag name attributes selfClosing =>
      cases h
      rw [Event.mode, modeBehind] at markup
      cases raw : rawTextElements.contains name with
      | false => rw [Piece.opensRaw, raw, Bool.false_and, Bool.false_and]
      | true =>
          -- such an element has content, so its tag keeps the slash
          have noVoid := (rawTextElements_spec name (List.contains_iff_mem.mp raw)).2.2
          cases selfClosing with
          | false =>
              rw [raw] at markup
              cases markup
          | true =>
              have slash : writeStartTag name attributes true =
                  ('<' :: name.toList ++ attributes.flatMap Attribute.write) ++ ['/', '>'] := by
                rw [writeStartTag]
                simp [noVoid]
              have ends : endsWith ['/', '>'] (writeStartTag name attributes true) = true := by
                rw [slash, endsWith, List.reverse_append]
                rfl
              rw [Piece.opensRaw, ends, Bool.not_true, Bool.and_false]
  | endTag name =>
      rw [pieceOf] at h
      split at h
      · cases h
      · cases h
        rw [Piece.opensRaw]
        simp [startsWith, after?]
  | comment text =>
      rw [pieceOf] at h
      split at h
      · cases h
      · cases h
        rfl
  | _ =>
      cases h
      rfl

/-- A piece as it is read again. -/
def Piece.reread (options : MinifyOptions) : Piece → Piece
  | .text chars kept => .text (squash options kept chars) kept
  | piece => piece

theorem Piece.reread_of_ne {piece : Piece} (h : ∀ chars kept, piece ≠ .text chars kept) :
    piece.reread options = piece := by
  cases piece with
  | text chars kept => exact absurd rfl (h chars kept)
  | _ => rfl

theorem StartsApart.map_reread (apart : StartsApart pieces) :
    StartsApart (pieces.map (Piece.reread options)) := by
  intro chars kept there
  cases pieces with
  | nil => cases there
  | cons piece rest =>
      cases piece with
      | text own counted => exact apart own counted rfl
      | _ => cases there

/-! ## Reading -/

variable {event : Event} {text : List Char}

/-- A construct is read in front of what is read behind it. -/
theorem Reads.construct (proper : event.Proper) (legible : event.Legible)
    (construct : event.isText = false) (markup : event.mode = .markup) {piece : Piece}
    (made : pieceOf options (keepsSpace open') event = some piece)
    (h : Reads options (opened open' event) text marks pieces) :
    Reads options open' (piece.chars ++ text) (event.mark?.toList ++ marks) (piece :: pieces) := by
  intro offset
  obtain ⟨noText, starts⟩ := pieceOf_construct construct made
  have some' : piece.chars ≠ [] := by
    rintro none
    rw [none] at starts
    cases starts
  have read := readPiece_pieceOf false proper legible construct made text
  rw [markup] at read
  obtain ⟨events, last, tail, passed, left, marked, later⟩ := h (offset + piece.chars.length)
  refine ⟨⟨offset, event.settled⟩ :: events, last, tail, ?_, left, ?_, fun elements names => ?_⟩
  · rw [pass_upTo some' read, passed]
    rfl
  · rw [List.cons_append, marksOf_cons, mark?_settled, marked]
  · have behind : openNames ((nest elements ⟨offset, event.settled⟩).toOption.getD elements) =
        opened open' event := by
      have same := nest_eq_mark elements ⟨offset, event.settled⟩
      dsimp only at same
      rw [mark?_settled, ← nest_eq_mark elements ⟨offset, event⟩] at same
      rw [same, openNames_nest, names]
    rw [List.cons_append, piecesOf, pieceOf_settled, preserves_eq_keepsSpace, names, made]
    dsimp only
    rw [joinTexts_cons, later _ behind, joinPiece_of_ne noText]

/-- An element with raw text is read in front of what is read behind it. -/
theorem Reads.element {element : String} {attributes : List Attribute} {chars : List Char}
    (proper : (Event.startTag element attributes false).Proper)
    (legible : (Event.startTag element attributes false).Legible) (raw : element ∈ rawTextElements)
    (noClosing : NoClosing element chars) (h : Reads options open' text marks pieces) :
    Reads options open'
      (writeStartTag element attributes false ++ (chars ++ ((endPiece element).chars ++ text)))
      (.opens element :: .closes element :: marks)
      (.tag (writeStartTag element attributes false) element ::
        layText true chars (endPiece element :: pieces)) := by
  intro offset
  have close : (endPiece element).chars ++ text =
      '<' :: '/' :: (element.toList ++ '>' :: text) := by
    simp [endPiece, Piece.chars]
  have start : readPiece false .markup (writeStartTag element attributes false ++
        (chars ++ ((endPiece element).chars ++ text))) =
      .upTo
        (writeStartTag element attributes false ++ (chars ++ ((endPiece element).chars ++ text)))
        (chars ++ ((endPiece element).chars ++ text))
        (some (.startTag element attributes false)) (.raw element) := by
    have read := readPiece_writeStartTag false proper.1 proper.2 legible false
      (chars ++ ((endPiece element).chars ++ text))
    rw [Bool.false_and, modeBehind, Bool.not_false, Bool.true_and,
      if_pos (by simpa using raw)] at read
    exact read
  obtain ⟨inside, at', behind, rest, data, all, left, passed⟩ := pass_raw raw false
    (breakWhere_endTag raw noClosing text)
    (offset + (writeStartTag element attributes false).length)
  rw [← close] at passed
  -- what is left behind the end tag is the text behind it
  obtain rfl : rest = text := by
    rw [List.drop_succ_cons, List.drop_succ_cons, List.drop_zero,
      (readEndTag_element raw text).1] at left
    cases left
    rfl
  obtain ⟨events, last, tail, passed', leftOver', marked, later⟩ := h behind
  refine ⟨⟨offset, .startTag element attributes false⟩ ::
    (inside ++ ⟨at', .endTag element⟩ :: events), last, tail, ?_, leftOver', ?_,
    fun elements names => ?_⟩
  · rw [pass_upTo (by simp [writeStartTag]) start, passed, passed']
    rfl
  · rw [List.cons_append, List.append_assoc, List.cons_append, marksOf_element raw data, marked]
  · rw [List.cons_append, List.append_assoc, List.cons_append, joinTexts_element raw data, all,
      later elements names]

/-- Pieces of a page with legible texts are read again. -/
theorem Spelled.reads (h : Spelled options open' marks pieces)
    (noRaw : ∀ tag ∈ previous, tag.opensRaw = false) (readable : Readable previous pieces) :
    Reads options open' (pieces.flatMap Piece.chars) marks (pieces.map (Piece.reread options)) := by
  induction h generalizing previous with
  | nil => exact reads_nil
  | @text open' marks chars rest some' apart others ih =>
      have text : ∀ tag ∈ some (Piece.text chars (keepsSpace open')), tag.opensRaw = false := by
        rintro _ ⟨⟩
        rfl
      have later := ih text readable.2
      -- raw text has its tags around it, so this text is not raw
      have legible : LegibleText chars := by
        refine (readable.1 chars _ rfl).resolve_left ?_
        rintro ⟨tag, there, raw⟩
        rw [noRaw tag there] at raw
        cases raw
      have ends : ∀ c ∈ (rest.flatMap Piece.chars).head?, c = '<' := by
        rcases others.head_cases with ⟨more, behind, rfl, -⟩ | ⟨-, ends⟩
        · exact absurd rfl (apart more _)
        · exact ends
      have read := later.legible legible ends
      rw [layText_of_ne (mt squash_eq_nil.mp some'),
        joinPiece_of_head _ (StartsApart.map_reread apart)] at read
      exact read
  | @construct open' marks event piece rest proper legible construct markup made _ ih =>
      have closed : ∀ tag ∈ some piece, tag.opensRaw = false := by
        rintro _ ⟨⟩
        exact opensRaw_of_pieceOf markup made
      have later := ih closed readable.2
      rw [List.map_cons, Piece.reread_of_ne (pieceOf_construct construct made).1]
      exact later.construct proper legible construct markup made
  | @raw open' marks element attributes chars rest proper legible raw noClosing _ ih =>
      have closed : ∀ tag ∈ some (endPiece element), tag.opensRaw = false := by
        rintro _ ⟨⟩
        rw [endPiece, Piece.opensRaw]
        simp [startsWith, after?]
      by_cases none : chars = []
      · subst none
        have later := ih closed readable.2.2
        exact later.element proper legible raw noClosing
      · have apart : ∀ behind, StartsApart (endPiece element :: behind) :=
          startsApart_cons (by simp [endPiece])
        rw [layText_of_ne none, joinPiece_of_head _ (apart _)] at readable ⊢
        have later := ih closed readable.2.2.2
        have read := later.element proper legible raw noClosing
        rw [layText_of_ne none, joinPiece_of_head _ (apart _)] at read
        have kept : (Piece.text chars true).reread options = .text chars true := by
          rw [Piece.reread, squash, Bool.not_true, Bool.and_false]
          rfl
        rw [List.map_cons, List.map_cons, kept]
        exact read

end MessageCatalog.Markup
