import MessageCatalog.Proofs.Markup.Reread

/-!
# MessageCatalog.Proofs.Markup.Again -- pages that are minified a second time

What the minifier writes has no white space at an edge. Where it is legible the minifier accepts it
again and makes the same pieces of it, with the white space of each text collapsed as a whole. White
space that two texts had between them, with something in between that was dropped, is collapsed only
then: a page stays as it is exactly where its texts have single spaces the first time.
-/

namespace MessageCatalog.Markup

open MessageCatalog.Text

variable {options : MinifyOptions} {previous : Option Piece} {pieces : List Piece}

/-! ## Texts of any page -/

/-- A text stands next to no other one where it is put in front of pieces in which none does and
which start with a text of its kind, if with any. -/
theorem textsApart_joinPiece {kept : Bool}
    (h : TextsApart pieces ∧
      ∀ more counted, pieces.head? = some (.text more counted) → counted = kept)
    (chars : List Char) :
    TextsApart (joinPiece (.text chars kept) pieces) ∧
      ∀ more counted, (joinPiece (.text chars kept) pieces).head? = some (.text more counted) →
        counted = kept := by
  obtain ⟨apart, first⟩ := h
  by_cases starts : ∃ more counted, pieces.head? = some (.text more counted)
  · obtain ⟨more, counted, there⟩ := starts
    obtain rfl := first more counted there
    obtain ⟨rest, rfl⟩ := List.head?_eq_some_iff.mp there
    have joined : joinPiece (.text chars counted) (.text more counted :: rest) =
        .text (chars ++ more) counted :: rest := by
      simp [joinPiece]
    rw [joined]
    refine ⟨⟨fun _ _ _ => apart.1 more counted rfl, apart.2⟩, ?_⟩
    rintro _ _ ⟨⟩
    rfl
  · have alone : ∀ more counted, pieces.head? ≠ some (.text more counted) := by simpa using starts
    rw [joinPiece_of_head _ alone]
    refine ⟨⟨fun _ _ _ => alone, apart⟩, ?_⟩
    rintro _ _ ⟨⟩
    rfl

/-- No two texts stand next to each other when they are joined, for the white space of the two would
count alike. -/
theorem joinTexts_apart (options : MinifyOptions) (elements : List OpenElement)
    (events : List Located) :
    TextsApart (joinTexts (piecesOf options elements events)) ∧
      ∀ chars kept, (joinTexts (piecesOf options elements events)).head? = some (.text chars kept) →
        kept = preserves elements := by
  induction events generalizing elements with
  | nil => exact ⟨trivial, fun _ _ => nofun⟩
  | cons located rest ih =>
      have stays : located.event.mark? = none → nest elements located = .ok elements := by
        intro unmarked
        rw [nest_eq_mark, unmarked]
      rw [piecesOf]
      cases made : pieceOf options (preserves elements) located.event with
      | none =>
          rw [stays (mark?_of_pieceOf_none made)]
          exact ih elements
      | some piece =>
          dsimp only
          rw [joinTexts_cons]
          cases isText : located.event.isText with
          | true =>
              obtain ⟨⟨chars, -, text⟩, unmarked⟩ :=
                pieceOf_isText options (preserves elements) isText
              rw [made] at text
              cases text
              rw [stays unmarked]
              exact textsApart_joinPiece (ih elements) chars
          | false =>
              obtain ⟨noText, -⟩ := pieceOf_construct isText made
              rw [joinPiece_of_ne noText]
              exact ⟨⟨fun chars kept same => absurd same (noText chars kept), (ih _).1⟩,
                fun chars kept there => absurd (Option.some.inj there) (noText chars kept)⟩

/-! ## Pieces that are read again -/

theorem isEdge_map_reread (piece : Option Piece) :
    isEdge (piece.map (Piece.reread options)) = isEdge piece := by
  cases piece with
  | none => rfl
  | some piece => cases piece <;> rfl

/-- Texts that are trimmed are trimmed when they are read again. -/
theorem ofTexts_map_reread (collapses : options.collapseWhitespace = true)
    (h : OfTexts (fun previous next chars => chars ≠ [] ∧ Trimmed previous next chars) previous
      pieces) :
    OfTexts (fun previous next chars => chars ≠ [] ∧ Trimmed previous next chars)
      (previous.map (Piece.reread options)) (pieces.map (Piece.reread options)) := by
  induction pieces generalizing previous with
  | nil => exact ofTexts_nil
  | cons piece rest ih =>
      obtain ⟨own, others⟩ := ofTexts_cons.mp h
      refine ofTexts_cons.mpr ⟨fun chars isText => ?_, ih others⟩
      cases piece with
      | text words kept =>
          rw [Piece.reread, Piece.text.injEq] at isText
          obtain ⟨rfl, rfl⟩ := isText
          obtain ⟨some', trimmed⟩ := own words rfl
          refine ⟨mt squash_eq_nil.mp some', ?_⟩
          have same : squash options false words = collapse words := by
            rw [squash, collapses]
            rfl
          rw [same, List.head?_map]
          exact ⟨fun edge => trimmed.collapse.front (by rwa [isEdge_map_reread] at edge),
            fun edge => trimmed.collapse.back (by rwa [isEdge_map_reread] at edge)⟩
      | tag _ _ => cases isText
      | other _ => cases isText

/-- Nothing is longer when it is read again. -/
theorem length_reread (piece : Piece) :
    (piece.reread options).chars.length ≤ piece.chars.length := by
  cases piece with
  | text chars kept =>
      show (squash options kept chars).length ≤ chars.length
      rw [squash]
      split
      · exact length_collapseFrom false chars
      · exact Nat.le_refl _
  | tag _ _ => exact Nat.le_refl _
  | other _ => exact Nat.le_refl _

/-- A piece is written the same when it is read again just when no white space of it collapses. -/
theorem chars_reread_eq_iff (piece : Piece) :
    (piece.reread options).chars = piece.chars ↔
      (options.collapseWhitespace = true → ∀ chars, piece = .text chars false → Spaced chars) := by
  cases piece with
  | text chars kept =>
      show squash options kept chars = chars ↔ _
      rw [squash]
      cases options.collapseWhitespace <;> cases kept <;> simp [collapse_eq_self]
  | tag _ _ => exact iff_of_true rfl (by simp)
  | other _ => exact iff_of_true rfl (by simp)

/-- Pieces are written the same when they are read again just when their white space is single
spaces: no text gets longer, so none can make up for another one. -/
theorem chars_map_reread_eq_iff (previous : Option Piece) (pieces : List Piece) :
    (pieces.map (Piece.reread options)).flatMap Piece.chars = pieces.flatMap Piece.chars ↔
      (options.collapseWhitespace = true → OfTexts (fun _ _ => Spaced) previous pieces) := by
  have shorter : ∀ pieces : List Piece,
      ((pieces.map (Piece.reread options)).flatMap Piece.chars).length ≤
        (pieces.flatMap Piece.chars).length := by
    intro pieces
    induction pieces with
    | nil => exact Nat.le_refl _
    | cons piece rest ih =>
        rw [List.map_cons, List.flatMap_cons, List.flatMap_cons, List.length_append,
          List.length_append]
        exact Nat.add_le_add (length_reread piece) ih
  induction pieces generalizing previous with
  | nil => exact iff_of_true rfl fun _ => ofTexts_nil
  | cons piece rest ih =>
      rw [List.map_cons, List.flatMap_cons, List.flatMap_cons]
      -- neither half is longer than it was, so both are as long as they were
      have parts : (piece.reread options).chars ++
            (rest.map (Piece.reread options)).flatMap Piece.chars =
          piece.chars ++ rest.flatMap Piece.chars ↔
          (piece.reread options).chars = piece.chars ∧
            (rest.map (Piece.reread options)).flatMap Piece.chars = rest.flatMap Piece.chars := by
        refine ⟨fun same => ?_, fun both => by rw [both.1, both.2]⟩
        have size := congrArg List.length same
        rw [List.length_append, List.length_append] at size
        have own := @length_reread options piece
        have others := shorter rest
        exact List.append_inj same (by omega)
      refine parts.trans ((and_congr (chars_reread_eq_iff piece) (ih (some piece))).trans ?_)
      rw [ofTexts_cons]
      exact forall_and.symm

/-! ## A page that is read again -/

/-- What is read of markup that was written: nothing is lost, and a loose bracket or ampersand at
its end is data. -/
theorem tokenize_of_reads {open' : List String} {marks : List Mark} {text : List Char}
    (h : Reads options open' text marks pieces) :
    ∃ events, tokenize text = ⟨events, none⟩ ∧ marksOf events = marks ∧
      ∀ elements, openNames elements = open' →
        joinTexts (piecesOf options elements events) = pieces := by
  obtain ⟨events, last, tail, passed, loose, marked, made⟩ := h 0
  refine ⟨events ++ leftOver last tail, ?_, marked, made⟩
  rw [tokenize, passed]
  dsimp only
  -- the second pass does not read a loose character either
  rcases loose with rfl | rfl | rfl
  · rw [pass]
    simp [PassResult.remainder, leftOver]
  · have stop : readPiece true .markup ['<'] = .stop [] := rfl
    rw [pass, stop]
    simp [PassResult.remainder, leftOver]
  · have stop : readPiece true .markup ['&'] = .stop [] := rfl
    rw [pass, stop]
    simp [PassResult.remainder, leftOver]

/-! ## Minifying again -/

/-- The pieces that the minifier writes for markup. -/
def smallPieces (options : MinifyOptions) (markup : List Char) : List Piece :=
  minifyEvents options (tokenize markup).events

/-- Markup that is minified to something legible: its constructs are legible, and so are the texts
that come of it, save raw ones. -/
structure MinifiedLegibly (options : MinifyOptions) (markup : List Char) : Prop where
  constructs : ∀ located ∈ (tokenize markup).events, located.event.Legible
  texts : Readable none (smallPieces options markup)

variable {markup out : List Char}

/-- What is minified was accepted, and comes out as its pieces. -/
theorem minify_eq_ok : minify options markup = .ok out ↔
    checkPage (tokenize markup) = .ok () ∧
      out = (smallPieces options markup).flatMap Piece.chars := by
  rw [minify]
  cases checkPage (tokenize markup) with
  | error fault => simp
  | ok _ =>
      simp only [Except.ok.injEq, true_and]
      exact eq_comm

/-- Where white space collapses, no text that comes of markup is empty or has white space at an
edge. -/
theorem ofTexts_smallPieces (collapses : options.collapseWhitespace = true) (markup : List Char) :
    OfTexts (fun previous next chars => chars ≠ [] ∧ Trimmed previous next chars) none
      (smallPieces options markup) := by
  have all : OfTexts (fun _ _ _ => True) none
      (joinTexts (piecesOf options [] (tokenize markup).events)) := fun _ _ _ _ => trivial
  have trimmed := ofTexts_trimPieces (fun _ _ _ => id) (joinTexts_apart options [] _).1 all
  rw [smallPieces, minifyEvents, if_pos collapses]
  exact trimmed.mono fun _ _ _ own => ⟨own.1, own.2.2⟩

/-- What is minified to something legible is read again, its pieces with it. -/
theorem minify_of_legible (h : minify options markup = .ok out)
    (legible : MinifiedLegibly options markup) :
    minify options out =
      .ok (((smallPieces options markup).map (Piece.reread options)).flatMap Piece.chars) := by
  obtain ⟨accepted, rfl⟩ := minify_eq_ok.mp h
  obtain ⟨-, settled⟩ := (checkPage_iff_settles _).mp accepted
  have spelled : Spelled options [] (marksOf (tokenize markup).events)
      (smallPieces options markup) := by
    have joined : Spelled options [] _ _ :=
      (tokenize_orderly markup).spelled legible.constructs [] settled
    rw [smallPieces, minifyEvents]
    split
    · exact joined.trim none
    · exact joined
  have read := spelled.reads (by rintro _ ⟨⟩) legible.texts
  -- the marks are those of the first time, so the check accepts them again
  obtain ⟨events, page, marked, made⟩ := tokenize_of_reads read
  refine minify_eq_ok.mpr ⟨(checkPage_iff_settles _).mpr ?_, ?_⟩
  · rw [page, marked]
    exact ⟨rfl, settled⟩
  · conv_rhs => rw [smallPieces, page, minifyEvents, made [] rfl]
    split
    · next collapses =>
        have trimmed := ofTexts_map_reread collapses (ofTexts_smallPieces collapses markup)
        exact congrArg _ (trimPieces_eq_self trimmed).symm
    · rfl

/-- Minified markup has no white space at an edge. Where it is legible it is minified again without
a fault, and stays as it is just when the white space of its texts is single spaces. -/
theorem minify_again_iff (h : minify options markup = .ok out) :
    (options.collapseWhitespace = true →
      OfTexts Trimmed none (smallPieces options markup)) ∧
    (MinifiedLegibly options markup →
      ∃ again, minify options out = .ok again ∧
        (again = out ↔ (options.collapseWhitespace = true →
          OfTexts (fun _ _ => Spaced) none (smallPieces options markup)))) := by
  refine ⟨fun collapses => (ofTexts_smallPieces collapses markup).mono fun _ _ _ => And.right, ?_⟩
  intro legible
  refine ⟨_, minify_of_legible h legible, ?_⟩
  rw [(minify_eq_ok.mp h).2]
  exact chars_map_reread_eq_iff none (smallPieces options markup)

/-- Markup with white space on both sides of a comment. -/
def commented : List Char := "a <!-- x --> b".toList

/-- The comment is dropped, the white space on its two sides is joined, and collapses the second
time. -/
theorem minify_again_commented :
    ¬∀ options markup out, minify options markup = .ok out → minify options out = .ok out := by
  intro stays
  have first : minify ⟨true, true⟩ commented = .ok "a  b".toList := by decide +kernel
  have second : minify ⟨true, true⟩ "a  b".toList = .ok "a b".toList := by decide +kernel
  have same := stays _ _ _ first
  rw [second] at same
  exact absurd (Except.ok.inj same) (by decide)

/-- Markup with white space at edges and between words, a reference, a comment and raw text. -/
def worded : List Char :=
  "<p id=x> a  <b>b</b>\n&amp;<!-- --> 1 < 2</p><script>x  </y</script>".toList

theorem minify_again_worded :
    minify ⟨true, true⟩ worded =
        .ok "<p id=\"x\">a <b>b</b> &amp; 1 < 2</p><script>x  </y</script>".toList ∧
      MinifiedLegibly ⟨true, true⟩ worded ∧
      minify ⟨true, true⟩ "<p id=\"x\">a <b>b</b> &amp; 1 < 2</p><script>x  </y</script>".toList =
        .ok "<p id=\"x\">a <b>b</b> &amp; 1 < 2</p><script>x  </y</script>".toList ∧
      OfTexts (fun _ _ => Spaced) none (smallPieces ⟨true, true⟩ worded) ∧
      OfTexts Trimmed none (smallPieces ⟨true, true⟩ worded) := by
  have first : minify ⟨true, true⟩ worded =
      .ok "<p id=\"x\">a <b>b</b> &amp; 1 < 2</p><script>x  </y</script>".toList := by
    decide +kernel
  have second : minify ⟨true, true⟩
      "<p id=\"x\">a <b>b</b> &amp; 1 < 2</p><script>x  </y</script>".toList =
        .ok "<p id=\"x\">a <b>b</b> &amp; 1 < 2</p><script>x  </y</script>".toList := by
    decide +kernel
  have pieces : smallPieces ⟨true, true⟩ worded =
      [.tag "<p id=\"x\">".toList "p", .text "a ".toList false, .tag "<b>".toList "b",
        .text "b".toList false, .tag "</b>".toList "b", .text " &amp; 1 < 2".toList false,
        .tag "</p>".toList "p", .tag "<script>".toList "script", .text "x  </y".toList true,
        .tag "</script>".toList "script"] := by
    decide +kernel
  have legible : MinifiedLegibly ⟨true, true⟩ worded := by
    have front : LegibleText "a ".toList := .plain rfl (.plain rfl .nil)
    have bold : LegibleText "b".toList := .plain rfl .nil
    have back : LegibleText (' ' :: '&' :: ("amp".toList ++ ';' :: " 1 < 2".toList)) :=
      .plain rfl (.named ⟨'a', "mp".toList, rfl, rfl, List.all_eq_true.mp rfl⟩ (.plain rfl
        (.plain rfl (.plain rfl (.less (by rintro _ ⟨⟩; rfl) (.plain rfl (.plain rfl .nil)))))))
    refine ⟨by decide +kernel, ?_⟩
    rw [pieces]
    refine ⟨?_, ?_, ?_, ?_, ?_, ?_, ?_, ?_, ?_, ?_, trivial⟩ <;> rintro _ _ ⟨⟩
    · exact Or.inr front
    · exact Or.inr bold
    · exact Or.inr back
    · exact Or.inl ⟨_, rfl, by decide⟩
  obtain ⟨trimmed, again⟩ := minify_again_iff first
  obtain ⟨out, done, iff⟩ := again legible
  rw [second] at done
  cases done
  exact ⟨first, legible, second, iff.mp rfl rfl, trimmed rfl⟩

end MessageCatalog.Markup
