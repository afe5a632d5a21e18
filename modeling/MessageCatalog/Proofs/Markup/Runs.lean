import MessageCatalog.Proofs.Markup.Space

/-!
# MessageCatalog.Proofs.Markup.Runs -- the words of a page survive

The events of a page are runs of text with tags, declarations and comments between them. Minifying
writes what is between the runs in its order, and every run with the same words: the same characters
other than white space, and white space between two of them where there was some. Runs whose white
space counts are written as they are, and so is every run when nothing collapses.

Texts collapse event by event and are joined afterwards, so a run need not come out with single
spaces. What has collapsed has white space in the same places, whatever it is joined to, and that is
enough for the words.
-/

namespace MessageCatalog.Markup

open MessageCatalog.Text

/-! ## Words -/

/-- The characters of a text that are no white space. -/
def solid (text : List Char) : List Char := text.filter fun c => !isMarkupSpace c

/-- White space stands in a text behind that many other characters. -/
def Parted (text : List Char) (count : Nat) : Prop :=
  ∃ before space after, text = before ++ space :: after ∧ isMarkupSpace space = true ∧
    (solid before).length = count

/-- Two texts have the same words: the same characters other than white space, and white space
between two neighbours among them in both texts or in neither. -/
structure SameWords (text other : List Char) : Prop where
  characters : solid text = solid other
  spaces : ∀ count, 0 < count → count < (solid text).length →
    (Parted text count ↔ Parted other count)

/-- Two texts have the same words, and white space at the same ends. -/
structure Alike (text other : List Char) : Prop where
  characters : solid text = solid other
  spaces : ∀ count, Parted text count ↔ Parted other count

theorem solid_append (text more : List Char) : solid (text ++ more) = solid text ++ solid more :=
  List.filter_append _ _

theorem solid_space {c : Char} (space : isMarkupSpace c = true) (rest : List Char) :
    solid (c :: rest) = solid rest := List.filter_cons_of_neg (by simp [space])

theorem solid_other {c : Char} (other : isMarkupSpace c = false) (rest : List Char) :
    solid (c :: rest) = c :: solid rest := List.filter_cons_of_pos (by simp [other])

theorem solid_blank {text : List Char} (blank : ∀ c ∈ text, isMarkupSpace c = true) :
    solid text = [] := List.filter_eq_nil_iff.mpr (by simpa using blank)

/-- White space in a text that is put together stands in the one part or in the other. -/
theorem parted_append {text more : List Char} {count : Nat} :
    Parted (text ++ more) count ↔
      Parted text count ∨
        ∃ further, count = (solid text).length + further ∧ Parted more further := by
  constructor
  · rintro ⟨before, space, after, whole, isSpace, rfl⟩
    obtain ⟨behind, rfl, split⟩ | ⟨behind, rfl, split⟩ := List.append_eq_append_iff.mp whole
    · refine .inr ⟨(solid behind).length, ?_, behind, space, after, split, isSpace, rfl⟩
      rw [solid_append, List.length_append]
    · cases behind with
      | nil =>
          refine .inr ⟨0, ?_, [], space, after, split.symm, isSpace, rfl⟩
          rw [List.append_nil, Nat.add_zero]
      | cons c behind =>
          obtain ⟨rfl, rfl⟩ := List.cons.inj split
          exact .inl ⟨before, space, behind, rfl, isSpace, rfl⟩
  · rintro (⟨before, space, after, rfl, isSpace, rfl⟩ |
      ⟨_, rfl, before, space, after, rfl, isSpace, rfl⟩)
    · exact ⟨before, space, after ++ more, by simp, isSpace, rfl⟩
    · refine ⟨text ++ before, space, after, by simp, isSpace, ?_⟩
      rw [solid_append, List.length_append]

theorem parted_space {c : Char} (space : isMarkupSpace c = true) {rest : List Char} {count : Nat} :
    Parted (c :: rest) count ↔ count = 0 ∨ Parted rest count := by
  have alone : Parted [c] count ↔ count = 0 := by
    constructor
    · rintro ⟨before, other, after, split, -, rfl⟩
      cases before with
      | nil => rfl
      | cons d before => exact absurd (List.cons.inj split).2 (by simp)
    · rintro rfl
      exact ⟨[], c, [], rfl, space, rfl⟩
  rw [← List.singleton_append, parted_append, alone, solid_space space]
  simp [solid]

theorem parted_other {c : Char} (other : isMarkupSpace c = false) {rest : List Char} {count : Nat} :
    Parted (c :: rest) count ↔ ∃ further, count = further + 1 ∧ Parted rest further := by
  have none : ¬Parted [c] count := by
    rintro ⟨before, space, after, split, isSpace, -⟩
    cases before with
    | nil =>
        obtain ⟨rfl, -⟩ := List.cons.inj split
        rw [other] at isSpace
        cases isSpace
    | cons d before => exact absurd (List.cons.inj split).2 (by simp)
  rw [← List.singleton_append, parted_append, solid_other other]
  simp [none, solid, Nat.add_comm]

namespace Alike

variable {text other more further : List Char}

theorem refl (text : List Char) : Alike text text := ⟨rfl, fun _ => Iff.rfl⟩

/-- Texts that are alike are alike whatever they are joined to. -/
theorem append (h : Alike text other) (h' : Alike more further) :
    Alike (text ++ more) (other ++ further) where
  characters := by rw [solid_append, solid_append, h.characters, h'.characters]
  spaces count := by
    rw [parted_append, parted_append, h.spaces, h.characters]
    simp only [h'.spaces]

theorem sameWords (h : Alike text other) : SameWords text other :=
  ⟨h.characters, fun count _ _ => h.spaces count⟩

end Alike

/-- What collapses inside a run of white space stays the same but for the white space in front. -/
theorem parted_collapseFrom (inRun : Bool) (text : List Char) (count : Nat) :
    Parted (collapseFrom inRun text) count ∨ inRun = true ∧ count = 0 ↔
      Parted text count ∨ inRun = true ∧ count = 0 := by
  induction text generalizing inRun count with
  | nil => rw [collapseFrom]
  | cons c rest ih =>
      by_cases space : isMarkupSpace c = true
      · have later := ih true count
        rw [collapseFrom_space space, parted_space space]
        cases inRun with
        | true =>
            rw [if_pos rfl, later]
            tauto
        | false =>
            rw [if_neg (by decide), parted_space (by decide)]
            tauto
      · have other : isMarkupSpace c = false := Bool.eq_false_iff.mpr space
        have later : ∀ further,
            Parted (collapseFrom false rest) further ↔ Parted rest further := by
          simpa using ih false
        rw [collapseFrom_other other, parted_other other, parted_other other]
        simp only [later]

theorem solid_collapseFrom (inRun : Bool) (text : List Char) :
    solid (collapseFrom inRun text) = solid text := by
  induction text generalizing inRun with
  | nil => rw [collapseFrom]
  | cons c rest ih =>
      by_cases space : isMarkupSpace c = true
      · rw [collapseFrom_space space, solid_space space]
        split
        · exact ih true
        · rw [solid_space (by decide), ih]
      · have other : isMarkupSpace c = false := Bool.eq_false_iff.mpr space
        rw [collapseFrom_other other, solid_other other, solid_other other, ih]

/-- A text is like what it collapses to. -/
theorem alike_collapse (text : List Char) : Alike text (collapse text) where
  characters := (solid_collapseFrom false text).symm
  spaces count := by
    have same := parted_collapseFrom false text count
    simpa [collapse] using same.symm

/-- White space at the ends of a text belongs to no two of its words. -/
theorem sameWords_between {before text after : List Char}
    (blankBefore : ∀ c ∈ before, isMarkupSpace c = true)
    (blankAfter : ∀ c ∈ after, isMarkupSpace c = true) :
    SameWords (before ++ text ++ after) text where
  characters := by
    rw [solid_append, solid_append, solid_blank blankBefore, solid_blank blankAfter,
      List.nil_append, List.append_nil]
  spaces := by
    intro count positive below
    rw [solid_append, solid_append, solid_blank blankBefore, solid_blank blankAfter,
      List.nil_append, List.append_nil] at below
    rw [parted_append, parted_append, solid_append, solid_blank blankBefore]
    constructor
    · rintro ((⟨front, space, behind, split, -, rfl⟩ | ⟨further, rfl, parted⟩) | ⟨further, rfl, -⟩)
      · have none : solid front = [] := solid_blank fun c there =>
          blankBefore c (by rw [split]; exact List.mem_append_left _ there)
        rw [none] at positive
        exact absurd positive (Nat.lt_irrefl 0)
      · simpa using parted
      · rw [List.nil_append] at below
        omega
    · intro parted
      exact .inl (.inr ⟨count, by simp, parted⟩)

theorem SameWords.trans {text other last : List Char} (h : SameWords text other)
    (h' : SameWords other last) : SameWords text last where
  characters := h.characters.trans h'.characters
  spaces count positive below :=
    (h.spaces count positive below).trans (h'.spaces count positive (h.characters ▸ below))

theorem sameWords_trimText (previous next : Option Piece) (text : List Char) :
    SameWords text (trimText previous next text) := by
  obtain ⟨before, after, split, blankBefore, blankAfter, -⟩ := trimText_split previous next text
  have words : SameWords (before ++ trimText previous next text ++ after)
      (trimText previous next text) := sameWords_between blankBefore blankAfter
  rwa [← split] at words

/-! ## Runs -/

/-- A run of text; `kept` when its white space counts. -/
structure Run where
  kept : Bool
  text : List Char

/-- The text that an event is. A reference is the text that it is written as. -/
def Event.text? : Event → Option (List Char)
  | .data text => some text
  | .named name => some ('&' :: name ++ [';'])
  | .numeric digits => some ('&' :: '#' :: digits ++ [';'])
  | _ => none

/-- Whether nothing is written for an event: a comment when comments are removed, and the end tag of
an element that has none. -/
def Event.isUnwritten (options : MinifyOptions) : Event → Bool
  | .comment _ => options.removeComments
  | .endTag name => voidElements.contains name
  | _ => false

/-- The run that events start with, and the other events that are written, each with the run behind
it. An event that is not written ends no run. -/
def runsOf (options : MinifyOptions) (open' : List OpenElement) :
    List Located → Run × List (Event × Run)
  | [] => (⟨preserves open', []⟩, [])
  | located :: rest =>
    let behind := runsOf options ((nest open' located).toOption.getD open') rest
    match located.event.text? with
    | some text => (⟨preserves open', text ++ behind.1.text⟩, behind.2)
    | none =>
      if located.event.isUnwritten options then behind
      else (⟨preserves open', []⟩, (located.event, behind.1) :: behind.2)

/-! ## What is written -/

/-- What is written for an event that is no text. A section ends in one bracket or in two. -/
def Event.WrittenAs : Event → List Char → Prop
  | .startTag name attributes selfClosing, chars =>
    chars = writeStartTag name attributes selfClosing
  | .endTag name, chars => chars = '<' :: '/' :: name.toList ++ ['>']
  | .comment text, chars => chars = "<!--".toList ++ text ++ "-->".toList
  | .declaration text, chars => chars = '<' :: '!' :: text ++ ['>']
  | .marked text, chars =>
    chars = "<![".toList ++ text ++ "]>".toList ∨ chars = "<![".toList ++ text ++ "]]>".toList
  | .instruction text, chars => chars = '<' :: '?' :: text ++ ['>']
  | _, _ => False

/-- What is written for a run: a text with the same words, and the run itself where its white space
counts or nothing collapses. -/
structure Run.WrittenAs (options : MinifyOptions) (run : Run) (chars : List Char) : Prop where
  words : SameWords run.text chars
  verbatim : run.kept = true ∨ options.collapseWhitespace = false → chars = run.text

/-- What is written for a run and for the events and runs behind it, in their order. -/
def WrittenOut (options : MinifyOptions) : Run → List (Event × Run) → List Char → Prop
  | run, [], out => run.WrittenAs options out
  | run, (event, next) :: others, out =>
    ∃ chars token rest, out = chars ++ token ++ rest ∧ run.WrittenAs options chars ∧
      event.WrittenAs token ∧ WrittenOut options next others rest

/-- A text is what some events come to when only white space, comments and the end tags of elements
that have none are touched. -/
def KeepsWords (options : MinifyOptions) (events : List Located) (out : List Char) : Prop :=
  WrittenOut options (runsOf options [] events).1 (runsOf options [] events).2 out

/-! ## Runs among pieces -/

/-- A text in front of pieces. A text without characters may be no piece. -/
def Lays (kept : Bool) (chars : List Char) (pieces laid : List Piece) : Prop :=
  laid = .text chars kept :: pieces ∨ chars = [] ∧ laid = pieces

/-- Pieces are a run and the events and runs behind it, each run as a text that is allowed for it. -/
def LaidOut (allowed : Run → List Char → Prop) : Run → List (Event × Run) → List Piece → Prop
  | run, [], pieces => ∃ chars, allowed run chars ∧ Lays run.kept chars [] pieces
  | run, (event, next) :: others, pieces =>
    ∃ chars token behind, allowed run chars ∧ (∀ own kept, token ≠ .text own kept) ∧
      event.WrittenAs token.chars ∧ LaidOut allowed next others behind ∧
      Lays run.kept chars (token :: behind) pieces

theorem Lays.flatMap {kept : Bool} {chars : List Char} {pieces laid : List Piece}
    (h : Lays kept chars pieces laid) :
    laid.flatMap Piece.chars = chars ++ pieces.flatMap Piece.chars := by
  obtain rfl | ⟨rfl, rfl⟩ := h
  · rfl
  · rfl

/-- A text that comes in front of a text of its kind is joined to it. -/
theorem Lays.joinPiece {kept : Bool} {chars : List Char} {pieces laid : List Piece}
    (h : Lays kept chars pieces laid)
    (starts : ∀ own counted, pieces.head? ≠ some (.text own counted)) (more : List Char) :
    Lays kept (more ++ chars) pieces (joinPiece (.text more kept) laid) := by
  obtain rfl | ⟨rfl, rfl⟩ := h
  · exact .inl (by simp [Markup.joinPiece])
  · rw [List.append_nil]
    exact .inl (joinPiece_of_head _ starts)

/-- Trimming takes white space off the ends of a text whose white space does not count, and leaves
any other text as it is. -/
theorem Lays.trimPieces {kept : Bool} {chars : List Char} {pieces laid : List Piece}
    (h : Lays kept chars pieces laid) (previous : Option Piece) :
    ∃ before own, Lays kept own (trimPieces before pieces) (trimPieces previous laid) ∧
      SameWords chars own ∧ (kept = true → own = chars) := by
  obtain rfl | ⟨rfl, rfl⟩ := h
  · cases kept with
    | true =>
        refine ⟨some (.text chars true), chars, .inl ?_, (Alike.refl chars).sameWords,
          fun _ => rfl⟩
        exact trimPieces_of_ne (by simp) previous pieces
    | false =>
        refine ⟨some (.text chars false), trimText previous pieces.head? chars, ?_,
          sameWords_trimText _ _ _, fun not => nomatch not⟩
        rw [trimPieces_uncounted]
        split
        · next none => exact .inr ⟨none, rfl⟩
        · exact .inl rfl
  · exact ⟨previous, [], .inr ⟨rfl, rfl⟩, (Alike.refl []).sameWords, fun _ => rfl⟩

namespace LaidOut

variable {allowed : Run → List Char → Prop} {run : Run} {others : List (Event × Run)}
  {pieces : List Piece}

/-- What is laid out for the runs is written out for them. -/
theorem writtenOut {options : MinifyOptions}
    (h : LaidOut (Run.WrittenAs options) run others pieces) :
    WrittenOut options run others (pieces.flatMap Piece.chars) := by
  induction others generalizing run pieces with
  | nil =>
      obtain ⟨chars, written, lays⟩ := h
      rw [lays.flatMap, List.flatMap_nil, List.append_nil]
      exact written
  | cons other others ih =>
      obtain ⟨chars, token, behind, written, -, token', laid, lays⟩ := h
      refine ⟨chars, token.chars, behind.flatMap Piece.chars, ?_, written, token', ih laid⟩
      rw [lays.flatMap, List.flatMap_cons, List.append_assoc]

theorem mono {weaker : Run → List Char → Prop} (h : LaidOut allowed run others pieces)
    (imp : ∀ run chars, allowed run chars → weaker run chars) :
    LaidOut weaker run others pieces := by
  induction others generalizing run pieces with
  | nil =>
      obtain ⟨chars, written, lays⟩ := h
      exact ⟨chars, imp _ _ written, lays⟩
  | cons other others ih =>
      obtain ⟨chars, token, behind, written, noText, token', laid, lays⟩ := h
      exact ⟨chars, token, behind, imp _ _ written, noText, token', ih laid, lays⟩

/-- Trimming leaves the words of every run, and a run whose white space counts as it is. -/
theorem trimPieces {weaker : Run → List Char → Prop} (h : LaidOut allowed run others pieces)
    (trims : ∀ run chars own, allowed run chars → SameWords chars own →
      (run.kept = true → own = chars) → weaker run own) (previous : Option Piece) :
    LaidOut weaker run others (trimPieces previous pieces) := by
  induction others generalizing run pieces previous with
  | nil =>
      obtain ⟨chars, written, lays⟩ := h
      obtain ⟨before, own, laid, words, same⟩ := lays.trimPieces previous
      exact ⟨own, trims _ _ _ written words same, laid⟩
  | cons other others ih =>
      obtain ⟨chars, token, behind, written, noText, token', laid, lays⟩ := h
      obtain ⟨before, own, laid', words, same⟩ := lays.trimPieces previous
      rw [trimPieces_of_ne fun text => noText text false] at laid'
      exact ⟨own, token, _, trims _ _ _ written words same, noText, token',
        ih laid (some token), laid'⟩

/-- A text in front of pieces is joined to the run that they start with. -/
theorem joinPiece {kept : Bool} {text whole more : List Char}
    (h : LaidOut allowed ⟨kept, text⟩ others pieces)
    (joins : ∀ chars, allowed ⟨kept, text⟩ chars → allowed ⟨kept, whole⟩ (more ++ chars)) :
    LaidOut allowed ⟨kept, whole⟩ others (joinPiece (.text more kept) pieces) := by
  cases others with
  | nil =>
      obtain ⟨chars, written, lays⟩ := h
      exact ⟨more ++ chars, joins chars written, lays.joinPiece (by simp) more⟩
  | cons other others =>
      obtain ⟨chars, token, behind, written, noText, token', laid, lays⟩ := h
      refine ⟨more ++ chars, token, behind, joins chars written, noText, token', laid, ?_⟩
      exact lays.joinPiece (by simpa using noText) more

end LaidOut

/-! ## Events and their pieces -/

/-- A run as its texts collapse, each on its own. -/
structure Run.Collapsed (options : MinifyOptions) (run : Run) (chars : List Char) : Prop where
  alike : Alike run.text chars
  verbatim : run.kept = true ∨ options.collapseWhitespace = false → chars = run.text

/-- A text becomes a text, and only what may collapse does. -/
theorem pieceOf_of_text (options : MinifyOptions) (kept : Bool) {event : Event} {text : List Char}
    (isText : event.text? = some text) :
    ∃ chars, pieceOf options kept event = some (.text chars kept) ∧
      Run.Collapsed options ⟨kept, text⟩ chars := by
  cases event with
  | data own =>
      cases isText
      refine ⟨_, rfl, ?_⟩
      split
      · next collapses =>
          have loose : ¬(kept = true ∨ options.collapseWhitespace = false) := by
            simpa [and_comm] using collapses
          exact ⟨alike_collapse text, fun whole => absurd whole loose⟩
      · exact ⟨Alike.refl text, fun _ => rfl⟩
  | named name =>
      cases isText
      exact ⟨_, rfl, Alike.refl _, fun _ => rfl⟩
  | numeric digits =>
      cases isText
      exact ⟨_, rfl, Alike.refl _, fun _ => rfl⟩
  | _ => cases isText

/-- An event that is no text and not written becomes no piece. -/
theorem pieceOf_of_unwritten {options : MinifyOptions} {kept : Bool} {event : Event}
    (unwritten : event.isUnwritten options = true) : pieceOf options kept event = none := by
  cases event with
  | comment text => exact if_pos unwritten
  | endTag name => exact if_pos unwritten
  | _ => cases unwritten

/-- Any other event becomes the piece that is written for it. -/
theorem pieceOf_of_token {options : MinifyOptions} (kept : Bool) {event : Event}
    (noText : event.text? = none) (written : event.isUnwritten options = false) :
    ∃ token, pieceOf options kept event = some token ∧ (∀ own kept, token ≠ .text own kept) ∧
      event.WrittenAs token.chars := by
  cases event with
  | startTag name attributes selfClosing => exact ⟨_, rfl, nofun, rfl⟩
  | endTag name => exact ⟨_, if_neg (Bool.eq_false_iff.mp written), nofun, rfl⟩
  | comment text => exact ⟨_, if_neg (Bool.eq_false_iff.mp written), nofun, rfl⟩
  | declaration text => exact ⟨_, rfl, nofun, rfl⟩
  | marked text => exact ⟨_, rfl, nofun, .inl rfl⟩
  | instruction text => exact ⟨_, rfl, nofun, rfl⟩
  | _ => cases noText

/-- Texts and events that are not written open and close nothing. -/
theorem nest_of_text {event : Event} {text : List Char} (isText : event.text? = some text)
    (offset : Nat) (open' : List OpenElement) : nest open' ⟨offset, event⟩ = .ok open' := by
  cases event with
  | startTag => cases isText
  | endTag => cases isText
  | _ => rfl

theorem nest_of_unwritten {options : MinifyOptions} {event : Event}
    (unwritten : event.isUnwritten options = true) (offset : Nat) (open' : List OpenElement) :
    nest open' ⟨offset, event⟩ = .ok open' := by
  cases event with
  | startTag => cases unwritten
  | endTag name => exact if_pos unwritten
  | _ => rfl

variable (options : MinifyOptions) (open' : List OpenElement)

theorem runsOf_text {event : Event} {text : List Char} (isText : event.text? = some text)
    (offset : Nat) (rest : List Located) :
    runsOf options open' (⟨offset, event⟩ :: rest) =
      (⟨preserves open', text ++ (runsOf options open' rest).1.text⟩,
        (runsOf options open' rest).2) := by
  simp only [runsOf, isText, nest_of_text isText, Except.toOption, Option.getD_some]

theorem runsOf_unwritten {event : Event} (noText : event.text? = none)
    (unwritten : event.isUnwritten options = true) (offset : Nat) (rest : List Located) :
    runsOf options open' (⟨offset, event⟩ :: rest) = runsOf options open' rest := by
  simp only [runsOf, noText, if_pos unwritten, nest_of_unwritten unwritten, Except.toOption,
    Option.getD_some]

theorem runsOf_token {event : Event} (noText : event.text? = none)
    (written : event.isUnwritten options = false) (offset : Nat) (rest : List Located) :
    runsOf options open' (⟨offset, event⟩ :: rest) =
      (⟨preserves open', []⟩, (event,
        (runsOf options ((nest open' ⟨offset, event⟩).toOption.getD open') rest).1) ::
          (runsOf options ((nest open' ⟨offset, event⟩).toOption.getD open') rest).2) := by
  simp only [runsOf, noText, if_neg (Bool.eq_false_iff.mp written)]

/-- Whether the white space of the first run counts is settled by the elements that are open. -/
theorem kept_runsOf (events : List Located) :
    (runsOf options open' events).1.kept = preserves open' := by
  induction events with
  | nil => rfl
  | cons located rest ih =>
      obtain ⟨offset, event⟩ := located
      cases isText : event.text? with
      | some text => rw [runsOf_text options open' isText]
      | none =>
          cases unwritten : event.isUnwritten options with
          | true => rw [runsOf_unwritten options open' isText unwritten, ih]
          | false => rw [runsOf_token options open' isText unwritten]

/-- The pieces of events, neighbouring texts joined, are the runs of the events and what is between
them. Each run has collapsed event by event. -/
theorem laidOut_piecesOf (events : List Located) :
    LaidOut (Run.Collapsed options) (runsOf options open' events).1 (runsOf options open' events).2
      (joinTexts (piecesOf options open' events)) := by
  induction events generalizing open' with
  | nil => exact ⟨[], ⟨Alike.refl [], fun _ => rfl⟩, .inr ⟨rfl, rfl⟩⟩
  | cons located rest ih =>
      obtain ⟨offset, event⟩ := located
      cases isText : event.text? with
      | some text =>
          obtain ⟨chars, piece, collapsed⟩ := pieceOf_of_text options (preserves open') isText
          have behind := ih open'
          have kept := kept_runsOf options open' rest
          rw [runsOf_text options open' isText]
          simp only [piecesOf, piece, nest_of_text isText, Except.toOption, Option.getD_some,
            joinTexts_cons]
          generalize runsOf options open' rest = runs at behind kept
          obtain ⟨⟨own, first⟩, others⟩ := runs
          cases kept
          refine behind.joinPiece fun more joined => ⟨collapsed.alike.append joined.alike, ?_⟩
          intro whole
          rw [collapsed.verbatim whole, joined.verbatim whole]
      | none =>
          cases unwritten : event.isUnwritten options with
          | true =>
              rw [runsOf_unwritten options open' isText unwritten]
              simp only [piecesOf, pieceOf_of_unwritten unwritten, nest_of_unwritten unwritten,
                Except.toOption, Option.getD_some]
              exact ih open'
          | false =>
              obtain ⟨token, piece, noText, written⟩ :=
                pieceOf_of_token (preserves open') isText unwritten
              rw [runsOf_token options open' isText unwritten]
              simp only [piecesOf, piece, joinTexts_cons, joinPiece_of_ne noText]
              exact ⟨[], token, _, ⟨Alike.refl [], fun _ => rfl⟩, noText, written, ih _,
                .inr ⟨rfl, rfl⟩⟩

/-- The pieces that events are minified to keep the words of the events. -/
theorem keepsWords_minifyEvents (events : List Located) :
    KeepsWords options events ((minifyEvents options events).flatMap Piece.chars) := by
  have laid := laidOut_piecesOf options [] events
  rw [minifyEvents]
  split
  · next collapses =>
      refine LaidOut.writtenOut (laid.trimPieces ?_ none)
      intro run chars own collapsed words same
      refine ⟨collapsed.alike.sameWords.trans words, fun whole => ?_⟩
      have kept : run.kept = true := whole.resolve_right (by simp [collapses])
      rw [same kept, collapsed.verbatim whole]
  · refine LaidOut.writtenOut (laid.mono fun run chars collapsed => ?_)
    exact ⟨collapsed.alike.sameWords, collapsed.verbatim⟩

/-- Minifying touches white space, comments and the end tags of elements that have none, and nothing
else. Whatever the events are, what is between the runs of text is written in its order, and each
run with its words; runs whose white space counts, and all runs when nothing collapses, are written
as they are. So it is with every fragment that is minified. -/
theorem minify_keepsWords :
    (∀ events, KeepsWords options events ((minifyEvents options events).flatMap Piece.chars)) ∧
      ∀ markup out, minify options markup = .ok out →
        KeepsWords options (tokenize markup).events out := by
  refine ⟨keepsWords_minifyEvents options, fun markup out minified => ?_⟩
  rw [minify] at minified
  split at minified
  · cases minified
  · cases minified
    exact keepsWords_minifyEvents options (tokenize markup).events

/-- The end tag of an element that has none is a tag of the page that goes without being written. -/
theorem minify_loses_endTag :
    ¬∀ options markup out name, minify options markup = .ok out →
      .endTag name ∈ (tokenize markup).events.map Located.event →
        .endTag name ∈ (tokenize out).events.map Located.event := by
  intro stays
  have minified : minify ⟨true, true⟩ "a</br>b".toList = .ok "ab".toList := by decide +kernel
  have there := stays _ _ _ "br" minified (by decide +kernel)
  exact absurd there (by decide +kernel)

end MessageCatalog.Markup
