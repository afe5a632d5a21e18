import MessageCatalog.Proofs.Markup.Lossless
import MessageCatalog.Proofs.Markup.Names

/-!
# MessageCatalog.Proofs.Markup.TextContent -- text through the minifier, the tree and back

Events of text become one piece of the minifier and one node of the tree. The minifier collapses and
trims nothing where white space stands as single spaces between other characters. A node of text is
written with references for the characters of markup, and as a paragraph it has its own text again.
-/

namespace MessageCatalog.Markup

open MessageCatalog.Text

/-! ## White space -/

/-- White space stands in a text as single spaces between other characters. -/
def SingleSpaces (text : List Char) : Prop :=
  ∀ before c after, text = before ++ c :: after → isMarkupSpace c = true →
    c = ' ' ∧ (∃ d, before.getLast? = some d ∧ isMarkupSpace d = false) ∧
      ∃ d, after.head? = some d ∧ isMarkupSpace d = false

theorem SingleSpaces.head {text : List Char} (h : SingleSpaces text) {c : Char}
    (first : text.head? = some c) : isMarkupSpace c = false := by
  obtain ⟨rest, rfl⟩ := List.head?_eq_some_iff.mp first
  by_contra space
  obtain ⟨-, ⟨d, before, -⟩, -⟩ := h [] c rest rfl (by simpa using space)
  cases before

theorem SingleSpaces.last {text : List Char} (h : SingleSpaces text) {c : Char}
    (last : text.getLast? = some c) : isMarkupSpace c = false := by
  obtain ⟨front, rfl⟩ := List.getLast?_eq_some_iff.mp last
  by_contra space
  obtain ⟨-, -, d, after, -⟩ := h front c [] rfl (by simpa using space)
  cases after

theorem collapseFrom_infix {text : List Char} (h : SingleSpaces text) {chars : List Char}
    (inside : chars <:+: text) (inRun : Bool)
    (starts : inRun = true → ∀ c, chars.head? = some c → isMarkupSpace c = false) :
    collapseFrom inRun chars = chars := by
  induction chars generalizing inRun with
  | nil => rw [collapseFrom]
  | cons c rest ih =>
      obtain ⟨before, after, split⟩ := inside
      have later : rest <:+: text := ⟨before ++ [c], after, by rw [← split]; simp⟩
      rw [collapseFrom]
      split
      · next space =>
          -- a space is a single one: no space stands before or behind it
          have here : text = before ++ c :: (rest ++ after) := by rw [← split]; simp
          obtain ⟨rfl, -, d, next, other⟩ := h before c (rest ++ after) here space
          have outside : ¬inRun = true := fun inside => by
            rw [starts inside ' ' rfl] at space
            cases space
          rw [if_neg outside, ih later true]
          intro _ e first
          have same : (rest ++ after).head? = some e := by
            rw [List.head?_append, first, Option.some_or]
          rw [next] at same
          cases same
          exact other
      · rw [ih later false (fun run => by cases run)]

theorem collapse_infix {text : List Char} (h : SingleSpaces text) {chars : List Char}
    (inside : chars <:+: text) : collapse chars = chars :=
  collapseFrom_infix h inside false (fun run => by cases run)

theorem trimText_of_ends {text : List Char}
    (head : ∀ c, text.head? = some c → isMarkupSpace c = false)
    (last : ∀ c, text.getLast? = some c → isMarkupSpace c = false) :
    trimText none none text = text := by
  have front : text.dropWhile isMarkupSpace = text := by
    cases text with
    | nil => rfl
    | cons c rest => exact List.dropWhile_cons_of_neg (by simp [head c rfl])
  have back : text.reverse.dropWhile isMarkupSpace = text.reverse := by
    cases reversed : text.reverse with
    | nil => rfl
    | cons c rest =>
        have own : text.getLast? = some c := by rw [← List.head?_reverse, reversed]; rfl
        exact List.dropWhile_cons_of_neg (by simp [last c own])
  rw [trimText, isEdge, if_pos rfl, if_pos rfl, front, trimEnd, back, List.reverse_reverse]

/-! ## The minifier -/

variable {text : List Char} {events : List Located}

/-- Text neither opens nor closes an element. -/
theorem nest_text (open' : List OpenElement) {located : Located}
    (isText : located.event.IsTextOf text) : nest open' located = .ok open' := by
  obtain ⟨offset, event⟩ := located
  cases event with
  | data _ | named _ => rfl
  | startTag _ _ _ | endTag _ | numeric _ | comment _ | declaration _ | marked _ | instruction _ =>
      exact isText.elim

theorem nestAll_text (isText : ∀ located ∈ events, located.event.IsTextOf text) :
    nestAll [] events = .ok [] := by
  induction events with
  | nil => rfl
  | cons first rest ih =>
      rw [List.forall_mem_cons] at isText
      rw [nestAll, nest_text [] isText.1]
      exact ih isText.2

/-- An event of text is one piece, its name written out. -/
theorem pieceOf_text (options : MinifyOptions) (spaces : SingleSpaces text) {event : Event}
    (isText : event.IsTextOf text) :
    pieceOf options false event = some (.text (event.retold writtenOut) false) := by
  cases event with
  | data chars =>
      rw [pieceOf, collapse_infix spaces isText, ite_self]
      rfl
  | named name => rfl
  | startTag _ _ _ | endTag _ | numeric _ | comment _ | declaration _ | marked _ | instruction _ =>
      exact isText.elim

/-- Events of text become one piece, if there are any. -/
theorem joinTexts_text (options : MinifyOptions) (spaces : SingleSpaces text)
    (isText : ∀ located ∈ events, located.event.IsTextOf text) :
    joinTexts (piecesOf options [] events) =
      if events = [] then [] else [.text (eventsRetold writtenOut events) false] := by
  induction events with
  | nil => rfl
  | cons first rest ih =>
      rw [List.forall_mem_cons] at isText
      have piece := pieceOf_text options spaces isText.1
      have pieces : piecesOf options [] (first :: rest) =
          .text (first.event.retold writtenOut) false :: piecesOf options [] rest := by
        rw [piecesOf, nest_text [] isText.1]
        have outside : preserves [] = false := rfl
        rw [outside, piece]
        rfl
      have step : joinTexts (piecesOf options [] (first :: rest)) =
          joinPiece (.text (first.event.retold writtenOut) false)
            (joinTexts (piecesOf options [] rest)) := by
        rw [pieces]
        rfl
      rw [step, ih isText.2, if_neg (List.cons_ne_nil _ _)]
      cases rest with
      | nil => simp [joinPiece, eventsRetold]
      | cons next rest => simp [joinPiece, eventsRetold]

theorem letter_not_space {c : Char} (letter : isAsciiLetter c = true) :
    isMarkupSpace c = false := by
  by_contra space
  simp only [isMarkupSpace, Bool.not_eq_false, Bool.or_eq_true, beq_iff_eq] at space
  rcases space with (((rfl | rfl) | rfl) | rfl) | rfl <;> cases letter

/-- One piece of text is trimmed at both ends. -/
theorem trimPieces_text {chars : List Char} (ends : trimText none none chars = chars) :
    (trimPieces none [.text chars false]).flatMap Piece.chars = chars := by
  rw [trimPieces, List.head?_nil, ends]
  split
  · next none =>
    rw [List.isEmpty_iff.mp none]
    rfl
  · exact List.append_nil chars

/-- A text without brackets is minified by writing its names out. -/
theorem minify_bracketless (options : MinifyOptions) (h : Bracketless text)
    (spaces : SingleSpaces text) : minify options text = .ok (respelled text) := by
  obtain ⟨events, page, isText, told⟩ := tokenize_bracketless h
  have ends : trimText none none (respelled text) = respelled text := by
    refine trimText_of_ends (fun c first => ?_) (fun c last => ?_)
    · rcases head?_respelled first with own | ⟨letter, _⟩
      · exact spaces.head own
      · exact letter_not_space letter
    · rcases getLast?_respelled last with own | rfl
      · exact spaces.last own
      · rfl
  have joins := joinTexts_text options spaces isText
  have whole : eventsRetold writtenOut events = respelled text := told writtenOut
  rw [whole] at joins
  have checked : checkPage ⟨events, none⟩ = .ok () := by
    rw [checkPage, nestAll_text isText]
    rfl
  have pieces : (minifyEvents options events).flatMap Piece.chars = respelled text := by
    rw [minifyEvents, joins]
    by_cases nothing : events = []
    · rw [if_pos nothing, ← whole, nothing, trimPieces, ite_self]
      rfl
    · rw [if_neg nothing]
      split
      · exact trimPieces_text ends
      · exact List.append_nil _
  rw [minify, page]
  dsimp only
  rw [checked, pieces]

/-! ## The tree -/

/-- The text of a node that is made from some text. -/
def settled (chars : List Char) : List Char :=
  if chars.isEmpty then [] else Builder.empty.shrink chars

/-- The nodes of some text: one, unless there is none. -/
def textNodes (chars : List Char) : List Node :=
  if chars.isEmpty then [] else [.text (Builder.empty.shrink chars)]

theorem length_settled (chars : List Char) : (settled chars).length ≤ chars.length := by
  cases chars with
  | nil => exact Nat.le_refl 0
  | cons c rest =>
      rw [settled, List.isEmpty_cons, if_neg (by decide), Builder.shrink, if_neg (by simp [Builder.empty])]
      split
      · split <;> simp
      · exact Nat.le_refl _

/-- Text that starts with something else than white space is kept. -/
theorem settled_of_head {chars : List Char}
    (head : ∀ c, chars.head? = some c → isMarkupSpace c = false) : settled chars = chars := by
  cases chars with
  | nil => rfl
  | cons c rest =>
      have notBlank : ¬(c :: rest).all isMarkupSpace = true := by simp [head c rfl]
      rw [settled, List.isEmpty_cons, if_neg (by decide), Builder.shrink,
        if_neg (by simp [Builder.empty]), if_neg notBlank]

theorem foldl_read_text (isText : ∀ located ∈ events, located.event.IsTextOf text) (b : Builder) :
    events.foldl Builder.read b = b.addText (eventsRetold namedText events) := by
  induction events generalizing b with
  | nil => simp [eventsRetold, Builder.addText]
  | cons first rest ih =>
      obtain ⟨offset, event⟩ := first
      rw [List.forall_mem_cons] at isText
      have one : b.read ⟨offset, event⟩ = b.addText (event.retold namedText) := by
        cases event with
        | data _ | named _ => rw [Builder.read, Event.retold]
        | startTag _ _ _ | endTag _ | numeric _ | comment _ | declaration _ | marked _
        | instruction _ => exact isText.1.elim
      rw [List.foldl_cons, one, ih isText.2]
      simp [eventsRetold, Builder.addText]

theorem finish_addText (chars : List Char) :
    (Builder.empty.addText chars).finish = textNodes chars := by
  cases chars with
  | nil => rfl
  | cons c rest => rfl

/-- A text without brackets is a tree of one text, as it is read. -/
theorem parse_bracketless (h : Bracketless text) : parse text = .ok (textNodes (reading text)) := by
  obtain ⟨events, page, isText, told⟩ := tokenize_bracketless h
  have read := foldl_read_text isText Builder.empty
  have whole : eventsRetold namedText events = reading text := told namedText
  rw [whole] at read
  rw [parse, page, treeOf, read, finish_addText]

theorem sanitizeNodes_textNodes (allowLink : List Char → Bool) (chars : List Char) :
    sanitizeNodes allowLink (textNodes chars) = textNodes chars := by
  rw [textNodes]
  split
  · rw [sanitizeNodes]
  · rw [sanitizeNodes, sanitizeNodes, Node.sanitize]
    rfl

theorem render_textNodes (chars : List Char) :
    render (textNodes chars) = escapeText (settled chars) := by
  rw [render, textNodes, settled]
  split
  · rw [renderNodes]
    rfl
  · rw [renderNodes, renderNodes, Node.render_text, List.append_nil]

/-- A text without brackets is cleaned by writing what is read in it with references. -/
theorem sanitizeMarkup_bracketless (allowLink : List Char → Bool) (h : Bracketless text) :
    sanitizeMarkup allowLink text = .ok (escapeText (settled (reading text))) := by
  rw [sanitizeMarkup, parse_bracketless h]
  show Except.ok (render (sanitizeNodes allowLink (textNodes (reading text)))) = _
  rw [sanitizeNodes_textNodes, render_textNodes]

/-! ## The text of a paragraph -/

/-- The chunks of a paragraph. -/
def paragraph (chunks : List Chunk) : List Chunk :=
  .opening "p" [] :: (chunks ++ [.closing "p"])

theorem isName_p : IsName "p" := by decide

theorem textOf_paragraph (chunks : List Chunk) :
    textOf (paragraph chunks) = "<p>".toList ++ textOf chunks ++ "</p>".toList := by
  have opened : (Chunk.opening "p" []).text = "<p>".toList := by decide
  have closed : textOf [.closing "p"] = "</p>".toList := by decide
  rw [paragraph, textOf_cons, textOf_append, opened, closed, List.append_assoc]

theorem paragraph_proper {chunks : List Chunk} (proper : ∀ chunk ∈ chunks, chunk.Proper) :
    ∀ chunk ∈ paragraph chunks, chunk.Proper := by
  intro chunk there
  rcases List.mem_cons.mp there with rfl | there
  · exact ⟨isName_p, by simp, by decide⟩
  rcases List.mem_append.mp there with inside | last
  · exact proper chunk inside
  · rw [List.mem_singleton.mp last]
    exact isName_p

/-- Markup of chunks is set as a paragraph and read. -/
theorem parse_paragraph {chunks : List Chunk} (proper : ∀ chunk ∈ chunks, chunk.Proper) :
    parse ("<p>".toList ++ textOf chunks ++ "</p>".toList) =
      .ok (treeOf (joined (eventsFrom 0 (paragraph chunks)))) := by
  rw [← textOf_paragraph, parse_textOf (paragraph_proper proper)]

/-- A tree of proper parts has a text when it is written. -/
theorem textContent_render {nodes : List Node} (proper : ∀ part ∈ partsOf nodes, part.Proper) :
    ∃ text, textContent (render nodes) = .ok text := by
  have parsed := parse_paragraph (chunksOf_proper proper)
  rw [textContent, render, renderNodes_eq nodes proper, parsed]
  exact ⟨_, rfl⟩

/-- Joining texts that stand next to each other does not change what is built. -/
theorem foldl_read_joined (events : List Located) (b : Builder) :
    (joined events).foldl Builder.read b = events.foldl Builder.read b := by
  induction events generalizing b with
  | nil => rfl
  | cons first rest ih =>
      show (first.before (joined rest)).foldl Builder.read b = _
      rw [List.foldl_cons, ← ih]
      unfold Located.before
      split
      · next text offset more others isText same =>
        obtain ⟨start, event⟩ := first
        cases isText
        rw [same]
        -- both texts wait for the same node
        show others.foldl Builder.read (b.addText (text ++ more)) =
          others.foldl Builder.read ((b.addText text).addText more)
        simp only [Builder.addText, List.append_assoc]
      · rfl

/-- The chunks of a text are read as the text. -/
theorem foldl_read_textChunks (chars : List Char) (offset : Nat) (b : Builder) :
    (eventsFrom offset (chars.map textChunk)).foldl Builder.read b = b.addText chars := by
  induction chars generalizing offset b with
  | nil => simp [eventsFrom, Builder.addText]
  | cons c rest ih =>
      have one : b.read ⟨offset, (textChunk c).event⟩ = b.addText [c] := by
        rcases textChunk_cases c with ⟨w, rfl, chunk, _⟩ | ⟨_, chunk, _⟩
        · have known : namedText w.name = [w.char] := by
            rw [namedText, namedReferenceOf?, namedReference?_name]
            rfl
          rw [chunk]
          show b.addText (namedText w.name) = _
          rw [known]
        · rw [chunk]
          rfl
      rw [List.map_cons, eventsFrom, List.foldl_cons, one, ih]
      simp [Builder.addText]

theorem eventsFrom_append (chunks others : List Chunk) (offset : Nat) :
    eventsFrom offset (chunks ++ others) =
      eventsFrom offset chunks ++ eventsFrom (offset + (textOf chunks).length) others := by
  induction chunks generalizing offset with
  | nil => rfl
  | cons chunk rest ih =>
      rw [List.cons_append, eventsFrom, eventsFrom, ih, textOf_cons, List.length_append,
        List.cons_append, Nat.add_assoc]

theorem textContents_textNodes (chars : List Char) :
    textContents (textNodes chars) = settled chars := by
  rw [textNodes, settled]
  split
  · rw [textContents]
  · rw [textContents, textContents, Node.textContent, List.append_nil]

/-- The builder inside a paragraph that has just been opened. -/
def inParagraph : Builder := ⟨[⟨⟨"p", [], 0⟩, []⟩], [], [], []⟩

theorem endTag_inParagraph (chars : List Char) :
    ((inParagraph.addText chars).endTag "p").finish =
      [.element ⟨"p", [], 0⟩ (textNodes chars)] := by
  cases chars with
  | nil => rfl
  | cons c rest => rfl

theorem treeOf_paragraph (chars : List Char) :
    treeOf (joined (eventsFrom 0 (paragraph (chars.map textChunk)))) =
      [.element ⟨"p", [], 0⟩ (textNodes chars)] := by
  have opened : Builder.empty.read ⟨0, .startTag "p" [] false⟩ = inParagraph := rfl
  rw [treeOf, foldl_read_joined, paragraph, eventsFrom, List.foldl_cons, eventsFrom_append,
    List.foldl_append]
  show (List.foldl Builder.read _ (eventsFrom _ [.closing "p"])).finish = _
  have start : Builder.empty.read ⟨0, (Chunk.opening "p" []).event⟩ = inParagraph := opened
  rw [start, foldl_read_textChunks]
  exact endTag_inParagraph chars

/-- A text that is written with references has its text again. -/
theorem textContent_escapeText (chars : List Char) :
    textContent (escapeText chars) = .ok (settled chars) := by
  have proper : ∀ chunk ∈ chars.map textChunk, chunk.Proper := by
    intro chunk there
    obtain ⟨c, _, rfl⟩ := List.mem_map.mp there
    exact textChunk_proper c
  have parsed := parse_paragraph proper
  have tree := treeOf_paragraph chars
  rw [textContent, escapeText_eq, parsed, tree]
  show Except.ok (textContents (textNodes chars)) = _
  rw [textContents_textNodes]

end MessageCatalog.Markup
