import Mathlib.Data.List.Induction
import MessageCatalog.Markup.Minify
import MessageCatalog.Proofs.Text.Run

/-!
# MessageCatalog.Proofs.Markup.Space -- white space collapses and is trimmed once

Collapsing leaves single spaces and changes nothing where there are only single spaces. Texts next to
each other collapse on their own, unless white space meets white space where they join. Trimming
takes white space off the ends that stand at an edge and finds none there a second time.

Texts that agree in whether their white space counts become one when they are put next to each other.
Where no two texts stand next to each other, trimming does not change what a text has for neighbours:
a text that is trimmed away stood between tags or at an end. So one trimming leaves no white space at
any edge.
-/

namespace MessageCatalog.Markup

open MessageCatalog.Text

/-! ## Single spaces -/

/-- White space stands in a text as single spaces only. -/
def Spaced (text : List Char) : Prop :=
  ∀ before c after, text = before ++ c :: after → isMarkupSpace c = true →
    c = ' ' ∧ ∀ d ∈ after.head?, isMarkupSpace d = false

theorem spaced_nil : Spaced [] := by
  intro before c after split
  exact absurd split (by simp)

theorem spaced_cons {c : Char} {rest : List Char} :
    Spaced (c :: rest) ↔
      (isMarkupSpace c = true → c = ' ' ∧ ∀ d ∈ rest.head?, isMarkupSpace d = false) ∧
        Spaced rest := by
  constructor
  · intro h
    refine ⟨h [] c rest rfl, fun before d after split => h (c :: before) d after ?_⟩
    rw [split, List.cons_append]
  · rintro ⟨first, others⟩ before d after split
    cases before with
    | nil =>
        obtain ⟨rfl, rfl⟩ := List.cons.inj split
        exact first
    | cons _ before =>
        obtain ⟨rfl, rfl⟩ := List.cons.inj split
        exact others before d after rfl

theorem collapseFrom_space {c : Char} (space : isMarkupSpace c = true) (inRun : Bool)
    (rest : List Char) :
    collapseFrom inRun (c :: rest) =
      if inRun then collapseFrom true rest else ' ' :: collapseFrom true rest := by
  rw [collapseFrom, if_pos space]

theorem collapseFrom_other {c : Char} (other : isMarkupSpace c = false) (inRun : Bool)
    (rest : List Char) : collapseFrom inRun (c :: rest) = c :: collapseFrom false rest := by
  rw [collapseFrom, if_neg (Bool.eq_false_iff.mp other)]

/-- Where white space is single spaces, nothing collapses. -/
theorem Spaced.collapseFrom_eq {text : List Char} (h : Spaced text) (inRun : Bool)
    (starts : inRun = true → ∀ c ∈ text.head?, isMarkupSpace c = false) :
    collapseFrom inRun text = text := by
  induction text generalizing inRun with
  | nil => rw [collapseFrom]
  | cons c rest ih =>
      obtain ⟨first, others⟩ := spaced_cons.mp h
      by_cases space : isMarkupSpace c = true
      · obtain ⟨rfl, next⟩ := first space
        have outside : ¬inRun = true := fun inside =>
          absurd space (Bool.eq_false_iff.mp (starts inside ' ' rfl))
        rw [collapseFrom_space space, if_neg outside, ih others true fun _ => next]
      · rw [collapseFrom_other (Bool.eq_false_iff.mpr space), ih others false (fun run => nomatch run)]

/-- What collapses comes out with single spaces, and with none in front inside a run. -/
theorem spaced_collapseFrom (inRun : Bool) (text : List Char) :
    Spaced (collapseFrom inRun text) ∧
      (inRun = true → ∀ c ∈ (collapseFrom inRun text).head?, isMarkupSpace c = false) := by
  induction text generalizing inRun with
  | nil => exact ⟨spaced_nil, fun _ => nofun⟩
  | cons c rest ih =>
      by_cases space : isMarkupSpace c = true
      · rw [collapseFrom_space space]
        split
        · next run =>
            obtain ⟨spaced, starts⟩ := ih true
            exact ⟨spaced, fun _ => starts rfl⟩
        · next outside =>
            obtain ⟨spaced, starts⟩ := ih true
            exact ⟨spaced_cons.mpr ⟨fun _ => ⟨rfl, starts rfl⟩, spaced⟩,
              fun inside => absurd inside outside⟩
      · rw [collapseFrom_other (Bool.eq_false_iff.mpr space)]
        refine ⟨spaced_cons.mpr ⟨fun isSpace => absurd isSpace space, (ih false).1⟩, fun _ => ?_⟩
        simpa using space

theorem spaced_collapse (text : List Char) : Spaced (collapse text) := (spaced_collapseFrom _ _).1

theorem collapse_eq_self {text : List Char} : collapse text = text ↔ Spaced text := by
  constructor
  · intro same
    rw [← same]
    exact spaced_collapse text
  · exact fun h => h.collapseFrom_eq false (fun run => nomatch run)

theorem length_collapseFrom (inRun : Bool) (text : List Char) :
    (collapseFrom inRun text).length ≤ text.length := by
  induction text generalizing inRun with
  | nil => exact Nat.le_refl _
  | cons c rest ih =>
      have later := ih true
      have outside := ih false
      by_cases space : isMarkupSpace c = true
      · rw [collapseFrom_space space]
        split <;> simp only [List.length_cons] <;> omega
      · rw [collapseFrom_other (Bool.eq_false_iff.mpr space)]
        simp only [List.length_cons]
        omega

/-! ## Texts next to each other -/

/-- A text collapses on its own in front of a text that does not start with white space. -/
theorem collapseFrom_append {text more : List Char}
    (starts : ∀ c ∈ more.head?, isMarkupSpace c = false) (inRun : Bool) :
    collapseFrom inRun (text ++ more) = collapseFrom inRun text ++ collapse more := by
  induction text generalizing inRun with
  | nil =>
      cases more with
      | nil => rfl
      | cons d others =>
          rw [List.nil_append, collapse, collapseFrom_other (starts d rfl),
            collapseFrom_other (starts d rfl), collapseFrom, List.nil_append]
  | cons c rest ih =>
      rw [List.cons_append]
      by_cases space : isMarkupSpace c = true
      · rw [collapseFrom_space space, collapseFrom_space space, ih]
        split <;> rfl
      · rw [collapseFrom_other (Bool.eq_false_iff.mpr space),
          collapseFrom_other (Bool.eq_false_iff.mpr space), ih, List.cons_append]

/-- A text without white space is left as it is, and ends a run. -/
theorem collapseFrom_solid {text : List Char} (some : text ≠ [])
    (solid : ∀ c ∈ text, isMarkupSpace c = false) (inRun : Bool) (more : List Char) :
    collapseFrom inRun (text ++ more) = text ++ collapse more := by
  induction text generalizing inRun with
  | nil => exact absurd rfl some
  | cons c rest ih =>
      rw [List.forall_mem_cons] at solid
      rw [List.cons_append, collapseFrom_other solid.1, List.cons_append]
      cases rest with
      | nil => rfl
      | cons d others => rw [ih (List.cons_ne_nil _ _) solid.2]

/-- A text collapses to nothing only when there is nothing of it. -/
theorem collapse_eq_nil {text : List Char} : collapse text = [] ↔ text = [] := by
  constructor
  · intro h
    cases text with
    | nil => rfl
    | cons c rest =>
        rw [collapse, collapseFrom] at h
        split at h
        · rw [if_neg (by decide)] at h
          cases h
        · cases h
  · rintro rfl
    rfl

/-- Only white space collapses to white space. -/
theorem blank_collapseFrom (inRun : Bool) {text : List Char} :
    (∀ c ∈ collapseFrom inRun text, isMarkupSpace c = true) ↔
      ∀ c ∈ text, isMarkupSpace c = true := by
  induction text generalizing inRun with
  | nil => exact Iff.rfl
  | cons c rest ih =>
      rw [List.forall_mem_cons, ← ih true]
      by_cases space : isMarkupSpace c = true
      · rw [collapseFrom_space space]
        split
        · simp [space]
        · rw [List.forall_mem_cons]
          exact and_congr_left' (iff_of_true rfl space)
      · rw [collapseFrom_other (Bool.eq_false_iff.mpr space), List.forall_mem_cons]
        simp [space]

/-! ## Ends of texts -/

/-- No white space stands at an end of a text that is at an edge. -/
structure Trimmed (previous next : Option Piece) (text : List Char) : Prop where
  front : isEdge previous = true → ∀ c ∈ text.head?, isMarkupSpace c = false
  back : isEdge next = true → ∀ c ∈ text.getLast?, isMarkupSpace c = false

variable {previous next : Option Piece} {text : List Char}

/-- What collapses has no white space at the ends where it had none. -/
theorem Trimmed.collapse (h : Trimmed previous next text) :
    Trimmed previous next (Markup.collapse text) where
  front := by
    intro edge c first
    cases text with
    | nil => cases first
    | cons d rest =>
        have other : isMarkupSpace d = false := h.front edge d rfl
        rw [Markup.collapse, collapseFrom_other other] at first
        cases first
        exact other
  back := by
    intro edge c last
    cases text using List.reverseRecOn with
    | nil => cases last
    | append_singleton front d =>
        -- the last character is no white space, so it collapses on its own
        have other : isMarkupSpace d = false := h.back edge d (by simp)
        have alone : Markup.collapse [d] = [d] := collapseFrom_other other _ _
        rw [Markup.collapse, collapseFrom_append (by simpa using other), alone] at last
        rw [List.getLast?_concat] at last
        cases last
        exact other

/-- What is trimmed off is white space, off ends that stand at an edge. -/
theorem trimText_split (previous next : Option Piece) (text : List Char) :
    ∃ before after, text = before ++ trimText previous next text ++ after ∧
      (∀ c ∈ before, isMarkupSpace c = true) ∧ (∀ c ∈ after, isMarkupSpace c = true) ∧
      (isEdge previous = false → before = []) ∧ (isEdge next = false → after = []) := by
  -- the front is trimmed first, and the back of what is left then
  have front : ∃ before started, text = before ++ started ∧
      (if isEdge previous then text.dropWhile isMarkupSpace else text) = started ∧
      (∀ c ∈ before, isMarkupSpace c = true) ∧ (isEdge previous = false → before = []) := by
    cases isEdge previous with
    | true =>
        refine ⟨text.takeWhile isMarkupSpace, text.dropWhile isMarkupSpace,
          List.takeWhile_append_dropWhile.symm, rfl, fun c there => List.mem_takeWhile_imp there, ?_⟩
        exact fun not => nomatch not
    | false => exact ⟨[], text, rfl, rfl, nofun, fun _ => rfl⟩
  obtain ⟨before, started, split, same, blankBefore, inner⟩ := front
  rw [trimText, same]
  cases isEdge next with
  | true =>
      obtain ⟨after, split', blankAfter, -⟩ := trimEnd_split isMarkupSpace started
      refine ⟨before, after, ?_, blankBefore, blankAfter, inner, fun not => nomatch not⟩
      rw [if_pos rfl, List.append_assoc, ← split', split]
  | false =>
      refine ⟨before, [], ?_, blankBefore, nofun, inner, fun _ => rfl⟩
      rw [if_neg (by decide), List.append_nil, split]

/-- Trimming leaves no white space at an edge. -/
theorem trimmed_trimText (previous next : Option Piece) (text : List Char) :
    Trimmed previous next (trimText previous next text) where
  front := by
    intro edge c first
    have starts : ∀ d ∈ (text.dropWhile isMarkupSpace).head?, isMarkupSpace d = false :=
      (longestRun_takeWhile isMarkupSpace text).2.2
    rw [trimText, if_pos edge] at first
    split at first
    · obtain ⟨after, split, -, -⟩ := trimEnd_split isMarkupSpace (text.dropWhile isMarkupSpace)
      refine starts c ?_
      rw [split, List.head?_append, first]
      rfl
    · exact starts c first
  back := by
    intro edge c last
    rw [trimText, if_pos edge] at last
    obtain ⟨after, -, -, ends⟩ := trimEnd_split isMarkupSpace
      (if isEdge previous = true then text.dropWhile isMarkupSpace else text)
    exact ends c last

/-- Where no white space stands at an edge, nothing is trimmed. -/
theorem trimText_eq_self : trimText previous next text = text ↔ Trimmed previous next text := by
  constructor
  · intro same
    rw [← same]
    exact trimmed_trimText previous next text
  · intro h
    have front : (if isEdge previous then text.dropWhile isMarkupSpace else text) = text := by
      split
      · next edge => exact (dropWhile_eq_of_head? (h.front edge)).2
      · rfl
    rw [trimText, front]
    split
    · next edge =>
        have whole : trimEnd isMarkupSpace (text ++ []) = text := trimEnd_append nofun (h.back edge)
        rwa [List.append_nil] at whole
    · rfl

/-- A trimmed text between white space at edges is what trimming finds. -/
theorem trimText_append {before after : List Char} (some : text ≠ [])
    (h : Trimmed previous next text) (blankBefore : ∀ c ∈ before, isMarkupSpace c = true)
    (blankAfter : ∀ c ∈ after, isMarkupSpace c = true)
    (inner : isEdge previous = false → before = []) (inner' : isEdge next = false → after = []) :
    trimText previous next (before ++ text ++ after) = text := by
  have front : (if isEdge previous then (before ++ text ++ after).dropWhile isMarkupSpace
      else before ++ text ++ after) = text ++ after := by
    cases edge : isEdge previous with
    | true =>
        have starts : ∀ c ∈ (text ++ after).head?, isMarkupSpace c = false := by
          rw [List.head?_append, Option.or_of_isSome (List.isSome_head?.mpr some)]
          exact h.front edge
        rw [if_pos rfl, List.append_assoc, List.dropWhile_append_of_pos blankBefore,
          (dropWhile_eq_of_head? starts).2]
    | false => rw [inner edge, if_neg (by decide), List.nil_append]
  rw [trimText, front]
  cases edge : isEdge next with
  | true => rw [if_pos rfl, trimEnd_append blankAfter (h.back edge)]
  | false => rw [if_neg (by decide), inner' edge, List.append_nil]

/-- What is trimmed of a text with single spaces has single spaces. -/
theorem Spaced.trimText {chars : List Char} (spaced : Spaced chars)
    (previous next : Option Piece) : Spaced (Markup.trimText previous next chars) := by
  obtain ⟨before, after, split, -⟩ := trimText_split previous next chars
  generalize Markup.trimText previous next chars = text at split
  rintro front c behind rfl space
  have whole : chars = before ++ front ++ c :: (behind ++ after) := by
    rw [split]
    simp
  obtain ⟨same, follows⟩ := spaced _ _ _ whole space
  refine ⟨same, fun d first => follows d ?_⟩
  rw [Option.mem_def, List.head?_append, Option.mem_def.mp first]
  rfl

/-! ## A text in front of pieces -/

/-- A text in front of pieces, joined to the text that they start with; an empty text adds nothing. -/
def layText (kept : Bool) (chars : List Char) (pieces : List Piece) : List Piece :=
  if chars = [] then pieces else joinPiece (.text chars kept) pieces

theorem layText_nil (kept : Bool) (pieces : List Piece) : layText kept [] pieces = pieces := rfl

theorem layText_of_ne {chars : List Char} (some : chars ≠ []) (kept : Bool) (pieces : List Piece) :
    layText kept chars pieces = joinPiece (.text chars kept) pieces := if_neg some

/-- Two texts of one kind in front of pieces are one text in front of them. -/
theorem layText_layText (kept : Bool) (chars more : List Char) (pieces : List Piece) :
    layText kept chars (layText kept more pieces) = layText kept (chars ++ more) pieces := by
  cases chars with
  | nil => rfl
  | cons c chars =>
      cases more with
      | nil => rw [layText_nil, List.append_nil]
      | cons d more =>
          rw [List.cons_append, layText_of_ne (List.cons_ne_nil _ _),
            layText_of_ne (List.cons_ne_nil _ _), layText_of_ne (List.cons_ne_nil _ _)]
          cases pieces with
          | nil => simp [joinPiece]
          | cons piece rest =>
              cases piece with
              | text own counted => by_cases same : kept = counted <;> simp [joinPiece, same]
              | tag own name => simp [joinPiece]
              | other own => simp [joinPiece]

/-- What is no text stands for itself in front of pieces. -/
theorem joinPiece_of_ne {piece : Piece} (h : ∀ chars kept, piece ≠ .text chars kept)
    (pieces : List Piece) : joinPiece piece pieces = piece :: pieces := by
  unfold joinPiece
  split
  · exact absurd rfl (h _ _)
  · rfl

/-- A piece stands for itself in front of pieces that start with no text. -/
theorem joinPiece_of_head (piece : Piece) {pieces : List Piece}
    (starts : ∀ chars kept, pieces.head? ≠ some (.text chars kept)) :
    joinPiece piece pieces = piece :: pieces := by
  unfold joinPiece
  split
  · exact absurd rfl (starts _ _)
  · rfl

theorem joinTexts_cons (piece : Piece) (pieces : List Piece) :
    joinTexts (piece :: pieces) = joinPiece piece (joinTexts pieces) := rfl

/-! ## Neighbours -/

/-- What holds of every text whose white space does not count, given the pieces next to it. The
first piece stands behind `previous`. -/
def OfTexts (holds : (previous next : Option Piece) → List Char → Prop) (previous : Option Piece)
    (pieces : List Piece) : Prop :=
  ∀ before chars after, pieces = before ++ .text chars false :: after →
    holds (before.getLast?.or previous) after.head? chars

variable {holds : (previous next : Option Piece) → List Char → Prop} {pieces : List Piece}

theorem ofTexts_nil : OfTexts holds previous [] := by
  intro before chars after split
  exact absurd split (by simp)

theorem ofTexts_cons {piece : Piece} {rest : List Piece} :
    OfTexts holds previous (piece :: rest) ↔
      (∀ chars, piece = .text chars false → holds previous rest.head? chars) ∧
        OfTexts holds (some piece) rest := by
  have behind : ∀ before : List Piece,
      (piece :: before).getLast?.or previous = before.getLast?.or (some piece) := by
    intro before
    rw [List.getLast?_cons]
    cases before.getLast? <;> rfl
  constructor
  · intro h
    refine ⟨?_, fun before chars after split => ?_⟩
    · rintro chars rfl
      exact h [] chars rest rfl
    · rw [← behind]
      exact h (piece :: before) chars after (by rw [split, List.cons_append])
  · rintro ⟨first, others⟩ before chars after split
    cases before with
    | nil =>
        obtain ⟨rfl, rfl⟩ := List.cons.inj split
        exact first chars rfl
    | cons own before =>
        obtain ⟨rfl, rfl⟩ := List.cons.inj split
        rw [behind]
        exact others before chars after rfl

theorem OfTexts.mono {weaker : (previous next : Option Piece) → List Char → Prop}
    (h : OfTexts holds previous pieces)
    (imp : ∀ previous next chars, holds previous next chars → weaker previous next chars) :
    OfTexts weaker previous pieces :=
  fun before chars after split => imp _ _ _ (h before chars after split)

/-- What stands before pieces that start with no text does not matter. -/
theorem OfTexts.behind (h : OfTexts holds previous pieces)
    (starts : ∀ chars, pieces.head? ≠ some (.text chars false)) (other : Option Piece) :
    OfTexts holds other pieces := by
  cases pieces with
  | nil => exact ofTexts_nil
  | cons piece rest =>
      refine ofTexts_cons.mpr ⟨fun chars same => ?_, (ofTexts_cons.mp h).2⟩
      exact absurd (congrArg some same) (starts chars)

/-! ## Trimming -/

/-- No two texts stand next to each other. -/
def TextsApart : List Piece → Prop
  | [] => True
  | piece :: rest =>
    (∀ chars kept, piece = .text chars kept → ∀ more counted, rest.head? ≠ some (.text more counted)) ∧
      TextsApart rest

theorem trimPieces_uncounted (previous : Option Piece) (chars : List Char) (rest : List Piece) :
    trimPieces previous (.text chars false :: rest) =
      if trimText previous rest.head? chars = [] then trimPieces (some (.text chars false)) rest
      else .text (trimText previous rest.head? chars) false ::
        trimPieces (some (.text chars false)) rest := by
  rw [trimPieces]
  simp only [List.isEmpty_iff]

/-- A piece other than a text whose white space does not count is left as it is. -/
theorem trimPieces_of_ne {piece : Piece} (h : ∀ chars, piece ≠ .text chars false)
    (previous : Option Piece) (rest : List Piece) :
    trimPieces previous (piece :: rest) = piece :: trimPieces (some piece) rest :=
  trimPieces.eq_3 previous piece rest h

/-- Pieces that start with no text start with the same piece when they are trimmed. -/
theorem head?_trimPieces (starts : ∀ chars, pieces.head? ≠ some (.text chars false))
    (previous : Option Piece) : (trimPieces previous pieces).head? = pieces.head? := by
  cases pieces with
  | nil => rfl
  | cons piece rest =>
      rw [trimPieces_of_ne fun chars same => starts chars (congrArg some same)]
      rfl

/-- Trimming leaves texts that have something in them, and no white space at an edge; what holds of
texts and of what is trimmed of them holds still. -/
theorem ofTexts_trimPieces {holds : List Char → Prop}
    (trims : ∀ previous next chars, holds chars → holds (trimText previous next chars))
    (apart : TextsApart pieces) (h : OfTexts (fun _ _ => holds) previous pieces) :
    OfTexts (fun previous next chars => chars ≠ [] ∧ holds chars ∧ Trimmed previous next chars)
      previous (trimPieces previous pieces) := by
  induction pieces generalizing previous with
  | nil => exact ofTexts_nil
  | cons piece rest ih =>
      obtain ⟨alone, others⟩ := apart
      obtain ⟨own, behind⟩ := ofTexts_cons.mp h
      have later := ih others behind
      by_cases uncounted : ∃ chars, piece = .text chars false
      · obtain ⟨chars, rfl⟩ := uncounted
        -- the text is not next to another one, so what follows it starts as before
        have starts : ∀ more, rest.head? ≠ some (.text more false) :=
          fun more => alone chars false rfl more false
        have same := head?_trimPieces starts (some (.text chars false))
        have starts' : ∀ more,
            (trimPieces (some (.text chars false)) rest).head? ≠ some (.text more false) := by
          intro more
          rw [same]
          exact starts more
        rw [trimPieces_uncounted]
        split
        · exact later.behind starts' previous
        · next some =>
            refine ofTexts_cons.mpr ⟨?_, later.behind starts' _⟩
            rintro other isText
            cases isText
            rw [same]
            exact ⟨some, trims _ _ _ (own chars rfl), trimmed_trimText previous rest.head? chars⟩
      · rw [trimPieces_of_ne fun chars same => uncounted ⟨chars, same⟩]
        exact ofTexts_cons.mpr ⟨fun chars same => absurd ⟨chars, same⟩ uncounted, later⟩

/-- Where no white space stands at an edge, nothing is trimmed. -/
theorem trimPieces_eq_self
    (h : OfTexts (fun previous next chars => chars ≠ [] ∧ Trimmed previous next chars) previous
      pieces) : trimPieces previous pieces = pieces := by
  induction pieces generalizing previous with
  | nil => rfl
  | cons piece rest ih =>
      obtain ⟨first, others⟩ := ofTexts_cons.mp h
      have later := ih others
      by_cases uncounted : ∃ chars, piece = .text chars false
      · obtain ⟨chars, rfl⟩ := uncounted
        obtain ⟨some, trimmed⟩ := first chars rfl
        rw [trimPieces_uncounted, trimText_eq_self.mpr trimmed, if_neg some, later]
      · rw [trimPieces_of_ne fun chars same => uncounted ⟨chars, same⟩, later]

end MessageCatalog.Markup
