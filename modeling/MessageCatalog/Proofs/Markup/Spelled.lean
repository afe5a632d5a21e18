import MessageCatalog.Proofs.Markup.Legible
import MessageCatalog.Proofs.Markup.Orderly

/-!
# MessageCatalog.Proofs.Markup.Spelled -- the pieces of a page that was accepted

The pieces that the minifier makes of a page are texts and constructs that are read again as they
were, no two texts next to each other, and raw text between the tags of its element. Trimming keeps
them so. What such pieces write is read as the same constructs, and as the same texts with their
white space collapsed.
-/

namespace MessageCatalog.Markup

open MessageCatalog.Text

/-! ## Open elements -/

theorem closeElement_names (name : String) {elements others : List OpenElement}
    (same : openNames elements = openNames others) :
    (closeElement name elements).map openNames = (closeElement name others).map openNames := by
  have closes : ∀ elements others : List OpenElement, openNames elements = openNames others →
      (closeTo name elements).map openNames = (closeTo name others).map openNames := by
    intro elements
    induction elements with
    | nil =>
        intro others same
        cases others with
        | nil => rfl
        | cons e others => cases same
    | cons e elements ih =>
        intro others same
        cases others with
        | nil => cases same
        | cons e' others =>
            obtain ⟨own, rest⟩ := List.cons.inj same
            rw [closeTo, closeTo, own]
            split
            · exact congrArg Except.ok rest
            split
            · exact ih others rest
            · rfl
  have among : ∀ elements : List OpenElement, (elements.any fun e => e.name == name) =
      (openNames elements).any (· == name) := by
    intro elements
    rw [openNames, List.any_map]
    rfl
  rw [closeElement, closeElement, among, among, same]
  split
  · exact closes _ _ same
  · rfl

/-- The elements that are open behind an event. -/
def opened (open' : List String) (event : Event) : List String :=
  openNames ((nest (unplaced open') ⟨0, event⟩).toOption.getD (unplaced open'))

/-- Which elements are open behind an event does not depend on places. -/
theorem openNames_nest (elements : List OpenElement) (located : Located) :
    openNames ((nest elements located).toOption.getD elements) =
      opened (openNames elements) located.event := by
  have same : openNames elements = openNames (unplaced (openNames elements)) :=
    (openNames_unplaced _).symm
  rw [opened, nest_eq_mark, nest_eq_mark]
  dsimp only
  generalize unplaced (openNames elements) = others at same
  cases located.event.mark? with
  | none => exact same
  | some mark =>
      cases mark with
      | opens name => exact congrArg (name :: ·) same
      | closes name =>
          have closed := closeElement_names name same
          dsimp only
          cases first : closeElement name elements with
          | error why =>
              rw [first] at closed
              cases second : closeElement name others with
              | error why' => exact same
              | ok inner =>
                  rw [second] at closed
                  cases closed
          | ok inner =>
              rw [first] at closed
              cases second : closeElement name others with
              | error why' =>
                  rw [second] at closed
                  cases closed
              | ok inner' =>
                  rw [second] at closed
                  exact Except.ok.inj closed

/-! ## Pieces of a page -/

/-- The piece that the end tag of an element is. -/
def endPiece (element : String) : Piece :=
  .tag ('<' :: '/' :: element.toList ++ ['>']) element

/-- Pieces that come of a page, behind some open elements and with these marks. -/
inductive Spelled (options : MinifyOptions) : List String → List Mark → List Piece → Prop
  | nil {open' : List String} : Spelled options open' [] []
  /-- A text that stands next to no other one. -/
  | text {open' : List String} {marks : List Mark} {chars : List Char} {rest : List Piece} :
      chars ≠ [] → (∀ more kept, rest.head? ≠ some (.text more kept)) →
        Spelled options open' marks rest →
          Spelled options open' marks (.text chars (keepsSpace open') :: rest)
  /-- A construct with markup behind it. -/
  | construct {open' : List String} {marks : List Mark} {event : Event} {piece : Piece}
      {rest : List Piece} :
      event.Proper → event.Legible → event.isText = false → event.mode = .markup →
        pieceOf options (keepsSpace open') event = some piece →
          Spelled options (opened open' event) marks rest →
            Spelled options open' (event.mark?.toList ++ marks) (piece :: rest)
  /-- An element with raw text. -/
  | raw {open' : List String} {marks : List Mark} {element : String}
      {attributes : List Attribute} {chars : List Char} {rest : List Piece} :
      (Event.startTag element attributes false).Proper →
        (Event.startTag element attributes false).Legible → element ∈ rawTextElements →
          NoClosing element chars → Spelled options open' marks rest →
            Spelled options open' (.opens element :: .closes element :: marks)
              (.tag (writeStartTag element attributes false) element ::
                layText true chars (endPiece element :: rest))

variable {options : MinifyOptions} {open' : List String} {marks : List Mark} {pieces : List Piece}

/-- A construct is no piece of text, and starts with a bracket. -/
theorem pieceOf_construct {kept : Bool} {event : Event} (construct : event.isText = false)
    {piece : Piece} (h : pieceOf options kept event = some piece) :
    (∀ chars counted, piece ≠ .text chars counted) ∧ piece.chars.head? = some '<' := by
  cases event with
  | data _ | named _ | numeric _ => cases construct
  | startTag _ _ _ | declaration _ | marked _ | instruction _ =>
      cases h
      exact ⟨by simp, rfl⟩
  | endTag name =>
      rw [pieceOf] at h
      split at h
      · cases h
      · cases h
        exact ⟨by simp, rfl⟩
  | comment text =>
      rw [pieceOf] at h
      split at h
      · cases h
      · cases h
        exact ⟨by simp, rfl⟩

/-- What becomes no piece opens and closes no element. -/
theorem mark?_of_pieceOf_none {kept : Bool} {event : Event}
    (h : pieceOf options kept event = none) : event.mark? = none := by
  cases event with
  | endTag name =>
      rw [pieceOf] at h
      split at h
      · next void => exact if_pos void
      · cases h
  | comment text => rfl
  | _ => cases h

/-- What is text becomes a text, which is not empty where the event is proper, and opens and closes
no element. -/
theorem pieceOf_isText (options : MinifyOptions) (kept : Bool) {event : Event}
    (isText : event.isText = true) :
    (∃ chars, (event.Proper → chars ≠ []) ∧
      pieceOf options kept event = some (.text chars kept)) ∧ event.mark? = none := by
  cases event with
  | data text =>
      exact ⟨⟨squash options kept text, fun proper => mt squash_eq_nil.mp proper, rfl⟩, rfl⟩
  | named name => exact ⟨⟨_, fun _ => List.cons_ne_nil _ _, rfl⟩, rfl⟩
  | numeric digits => exact ⟨⟨_, fun _ => List.cons_ne_nil _ _, rfl⟩, rfl⟩
  | _ => cases isText

/-- Some pieces do not start with text. -/
def StartsApart (pieces : List Piece) : Prop :=
  ∀ chars kept, pieces.head? ≠ some (.text chars kept)

theorem startsApart_cons {piece : Piece} (noText : ∀ chars kept, piece ≠ .text chars kept)
    (rest : List Piece) : StartsApart (piece :: rest) :=
  fun chars kept same => noText chars kept (Option.some.inj same)

/-- Pieces of a page start with a text or with a bracket, or there are none. -/
theorem Spelled.head_cases (h : Spelled options open' marks pieces) :
    (∃ chars rest, pieces = .text chars (keepsSpace open') :: rest ∧ chars ≠ [] ∧
      StartsApart rest ∧ Spelled options open' marks rest) ∨
    StartsApart pieces ∧ ∀ c ∈ (pieces.flatMap Piece.chars).head?, c = '<' := by
  cases h with
  | nil => exact Or.inr ⟨by simp [StartsApart], fun _ => nofun⟩
  | text some' apart rest => exact Or.inl ⟨_, _, rfl, some', apart, rest⟩
  | construct proper legible construct markup piece rest =>
      obtain ⟨noText, starts⟩ := pieceOf_construct construct piece
      refine Or.inr ⟨startsApart_cons noText _, ?_⟩
      rw [List.flatMap_cons, List.head?_append, starts]
      rintro _ ⟨⟩
      rfl
  | raw proper legible raw noClosing rest =>
      refine Or.inr ⟨startsApart_cons (by simp) _, ?_⟩
      rintro _ ⟨⟩
      rfl

/-- A text in front of pieces of a page. -/
theorem Spelled.lay (h : Spelled options open' marks pieces) {chars : List Char}
    (some' : chars ≠ []) :
    Spelled options open' marks (joinPiece (.text chars (keepsSpace open')) pieces) := by
  rcases h.head_cases with ⟨more, rest, rfl, -, apart, others⟩ | ⟨apart, -⟩
  · have joined : joinPiece (.text chars (keepsSpace open'))
        (.text more (keepsSpace open') :: rest) =
          .text (chars ++ more) (keepsSpace open') :: rest := by
      simp [joinPiece]
    rw [joined]
    exact .text (by simp [some']) apart others
  · rw [joinPiece_of_head _ apart]
    exact .text some' apart h

/-! ## From events to pieces -/

/-- Raw text is one piece, if there is any. -/
theorem joinTexts_allData {inside : List Located} (data : AllData inside)
    {elements : List OpenElement} (kept : preserves elements = true) (rest : List Located) :
    joinTexts (piecesOf options elements (inside ++ rest)) =
      layText true (dataOf inside) (joinTexts (piecesOf options elements rest)) := by
  induction inside with
  | nil => rfl
  | cons located inside ih =>
      obtain ⟨⟨text, some', isData⟩, others⟩ := List.forall_mem_cons.mp data
      obtain ⟨offset, event⟩ := located
      obtain rfl : event = .data text := isData
      have whole : dataOf (⟨offset, .data text⟩ :: inside) = text ++ dataOf inside := rfl
      rw [whole, ← layText_layText, ← ih others, layText_of_ne some', List.cons_append, piecesOf,
        kept]
      simp [nest, pieceOf, Except.toOption, joinTexts_cons]

theorem marksOf_allData {inside : List Located} (data : AllData inside) (rest : List Located) :
    marksOf (inside ++ rest) = marksOf rest := by
  induction inside with
  | nil => rfl
  | cons located inside ih =>
      obtain ⟨⟨text, -, isData⟩, others⟩ := List.forall_mem_cons.mp data
      rw [List.cons_append, marksOf_cons, isData, ih others]
      rfl

/-- What is known of the elements with raw text. -/
theorem rawTextElements_spec : ∀ element ∈ rawTextElements,
    element ∈ preservedElements ∧ element ∉ optionalEndElements ∧ element ∉ voidElements := by
  decide

section RawText

variable {element : String} {attributes : List Attribute} {inside : List Located}

/-- An element with raw text is opened and closed. -/
theorem marksOf_element (raw : element ∈ rawTextElements) (data : AllData inside)
    (offset at' : Nat) (rest : List Located) :
    marksOf (⟨offset, .startTag element attributes false⟩ ::
        (inside ++ ⟨at', .endTag element⟩ :: rest)) =
      .opens element :: .closes element :: marksOf rest := by
  have noVoid := (rawTextElements_spec element raw).2.2
  have opens : (Event.startTag element attributes false).mark? = some (.opens element) :=
    if_neg (by simpa using noVoid)
  have closes : (Event.endTag element).mark? = some (.closes element) :=
    if_neg (by simpa using noVoid)
  rw [marksOf_cons, opens, marksOf_allData data, marksOf_cons, closes]
  rfl

/-- An element with raw text becomes its tags, and its raw text between them. -/
theorem joinTexts_element (raw : element ∈ rawTextElements) (data : AllData inside)
    (elements : List OpenElement) (offset at' : Nat) (rest : List Located) :
    joinTexts (piecesOf options elements (⟨offset, .startTag element attributes false⟩ ::
        (inside ++ ⟨at', .endTag element⟩ :: rest))) =
      .tag (writeStartTag element attributes false) element ::
        layText true (dataOf inside)
          (endPiece element :: joinTexts (piecesOf options elements rest)) := by
  obtain ⟨keeps, -, noVoid⟩ := rawTextElements_spec element raw
  have nested : nest elements ⟨offset, .startTag element attributes false⟩ =
      .ok (⟨element, offset⟩ :: elements) := if_neg (by simpa using noVoid)
  have closed : nest (⟨element, offset⟩ :: elements) ⟨at', .endTag element⟩ = .ok elements := by
    rw [nest]
    simp [noVoid, closeElement, closeTo]
  have kept : preserves (⟨element, offset⟩ :: elements) = true := by
    rw [preserves, List.any_cons, Bool.or_eq_true]
    exact Or.inl (by simpa using keeps)
  have ending : joinTexts (piecesOf options (⟨element, offset⟩ :: elements)
      (⟨at', .endTag element⟩ :: rest)) =
        endPiece element :: joinTexts (piecesOf options elements rest) := by
    rw [piecesOf, closed, pieceOf, if_neg (by simpa using noVoid)]
    rfl
  rw [← ending, ← joinTexts_allData data kept, piecesOf, nested]
  rfl

end RawText

/-- The pieces of a page that was accepted are pieces of a page, with its marks. -/
theorem Orderly.spelled {events : List Located} (h : Orderly events)
    (legible : ∀ located ∈ events, located.event.Legible) (elements : List OpenElement)
    (settles : Settles (openNames elements) (marksOf events)) :
    Spelled options (openNames elements) (marksOf events)
      (joinTexts (piecesOf options elements events)) := by
  induction h generalizing elements with
  | nil => exact .nil
  | @markup located rest proper markup _ ih =>
      rw [List.forall_mem_cons] at legible
      obtain ⟨inner, nested, settled⟩ := (settles_nest located rest).mp settles
      have later := ih legible.2 inner settled
      have behind : opened (openNames elements) located.event = openNames inner := by
        rw [← openNames_nest, nested]
        rfl
      rw [piecesOf, nested, preserves_eq_keepsSpace, marksOf_cons]
      dsimp only [Except.toOption, Option.getD_some]
      cases made : pieceOf options (keepsSpace (openNames elements)) located.event with
      | none =>
          -- what is dropped changes neither the open elements nor the marks
          have unmarked := mark?_of_pieceOf_none made
          rw [nest_eq_mark, unmarked] at nested
          cases nested
          rw [unmarked]
          exact later
      | some piece =>
          dsimp only
          rw [joinTexts_cons]
          cases isText : located.event.isText with
          | true =>
              obtain ⟨⟨chars, some', text⟩, unmarked⟩ := pieceOf_isText options
                (keepsSpace (openNames elements)) isText
              rw [made] at text
              cases text
              rw [nest_eq_mark, unmarked] at nested
              cases nested
              rw [unmarked]
              exact later.lay (some' proper)
          | false =>
              rw [joinPiece_of_ne (pieceOf_construct isText made).1]
              rw [← behind] at later
              exact .construct proper legible.1 isText markup made later
  | @raw located closing inside rest element proper mode data noClosing close _ ih =>
      obtain ⟨isRaw, attributes, event⟩ := Event.mode_eq_raw mode
      obtain ⟨offset, _⟩ := located
      obtain ⟨at', _⟩ := closing
      obtain rfl : _ = Event.startTag element attributes false := event
      obtain rfl : _ = Event.endTag element := close
      rw [List.forall_mem_cons, List.forall_mem_append, List.forall_mem_cons] at legible
      rw [marksOf_element isRaw data] at settles ⊢
      rw [joinTexts_element isRaw data]
      -- the end tag closes its own element, which needs it
      have settled : Settles (openNames elements) (marksOf rest) := by
        cases settles_opens.mp settles with
        | leave optional _ => exact absurd optional (rawTextElements_spec element isRaw).2.1
        | closes settled => exact settled
      exact .raw proper legible.1 isRaw noClosing (ih legible.2.2.2 elements settled)
  | @unclosed located inside element mode data =>
      obtain ⟨isRaw, attributes, event⟩ := Event.mode_eq_raw mode
      obtain ⟨-, needed, noVoid⟩ := rawTextElements_spec element isRaw
      have opens : located.event.mark? = some (.opens element) := by
        rw [event]
        exact if_neg (by simpa using noVoid)
      have marks : marksOf (located :: inside) = [.opens element] := by
        have none := marksOf_allData data []
        rw [List.append_nil] at none
        rw [marksOf_cons, opens, none]
        rfl
      -- nothing closes the element any more, and it needs its end tag
      rw [marks] at settles
      cases settles_opens.mp settles with
      | leave optional _ => exact absurd optional needed

end MessageCatalog.Markup
