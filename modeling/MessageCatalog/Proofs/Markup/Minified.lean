import MessageCatalog.Proofs.Markup.Escaped
import MessageCatalog.Proofs.Markup.Nesting
import MessageCatalog.Proofs.Markup.Reworded
import MessageCatalog.Proofs.Markup.Space

/-!
# MessageCatalog.Proofs.Markup.Minified -- a line of tokens through the minifier

The pieces that the minifier makes of a line are the pieces of the line in other words: its texts are
collapsed, then trimmed. So what the minifier writes is a line again.
-/

namespace MessageCatalog.Markup

open MessageCatalog.Text

/-! ## Pieces of a line -/

/-- Whether white space counts inside some open elements. -/
def counts (open' : List String) : Bool := open'.any blankKeepingElements.contains

/-- The piece of a token; `kept` says whether white space counts where it stands. -/
def LineToken.piece (kept : Bool) : LineToken → Piece
  | .text chars => .text (escapeText chars) kept
  | .opens name attributes =>
    .tag (textOf ((LineToken.opens name attributes).chunks minifiedAttribute)) name
  | .closes name => .tag (textOf ((LineToken.closes name).chunks minifiedAttribute)) name

/-- The pieces of a line inside some open elements. -/
def linePieces : (open' : List String) → List LineToken → List Piece
  | _, [] => []
  | open', token :: rest => token.piece (counts open') :: linePieces (entered open' token) rest

theorem LineToken.chars_piece (kept : Bool) (token : LineToken) :
    (token.piece kept).chars = textOf (token.chunks minifiedAttribute) := by
  cases token with
  | text chars => exact escapeText_eq chars
  | opens name attributes => rfl
  | closes name => rfl

/-- The pieces of a line are the line as the minifier writes it. -/
theorem chars_linePieces (open' : List String) (tokens : List LineToken) :
    (linePieces open' tokens).flatMap Piece.chars = lineText minifiedAttribute tokens := by
  induction tokens generalizing open' with
  | nil => rfl
  | cons token rest ih =>
      rw [linePieces, List.flatMap_cons, ih, LineToken.chars_piece, lineText_cons]

/-- A text in front of a line is a text in front of its pieces. -/
theorem linePieces_before (open' : List String) (chars : List Char) (rest : List LineToken) :
    linePieces open' ((LineToken.text chars).before rest) =
      layText (counts open') (escapeText chars) (linePieces open' rest) := by
  rcases before_text_cases chars rest with ⟨rfl, same⟩ | ⟨more, others, rfl, same⟩ |
    ⟨some, alone, same⟩
  · rw [same]
    rfl
  · rw [same]
    by_cases none : chars = []
    · subst none
      rfl
    · rw [layText_of_ne (fun nothing => none (escapeText_eq_nil.mp nothing))]
      simp [linePieces, LineToken.piece, joinPiece, escapeText_append, entered]
  · rw [same, layText_of_ne (fun nothing => some (escapeText_eq_nil.mp nothing))]
    cases rest with
    | nil => rfl
    | cons token others =>
        cases token with
        | text more => exact absurd rfl (alone more)
        | opens name attributes => rfl
        | closes name => rfl

/-- Texts that stand apart in a line do in its pieces. -/
theorem textsApart_linePieces {tokens : List LineToken} (apart : Apart tokens) (open' : List String) :
    TextsApart (linePieces open' tokens) := by
  induction tokens generalizing open' with
  | nil => trivial
  | cons token rest ih =>
      cases token with
      | text chars =>
          obtain ⟨-, alone, others⟩ := apart
          refine ⟨fun _ _ _ more counted => ?_, ih others _⟩
          cases rest with
          | nil => nofun
          | cons token rest =>
              cases token with
              | text own => exact absurd rfl (alone own)
              | opens name attributes => nofun
              | closes name => nofun
      | opens name attributes => exact ⟨nofun, ih apart _⟩
      | closes name => exact ⟨nofun, ih apart _⟩

/-! ## Text of a line -/

/-- White space that is collapsed where the minifier collapses it. -/
def squash (options : MinifyOptions) (kept : Bool) (chars : List Char) : List Char :=
  if options.collapseWhitespace && !kept then collapse chars else chars

theorem squash_eq_nil {options : MinifyOptions} {kept : Bool} {chars : List Char} :
    squash options kept chars = [] ↔ chars = [] := by
  rw [squash]
  split
  · exact collapse_eq_nil
  · exact Iff.rfl

/-- A reference ends the white space in front of it. -/
theorem squash_written (options : MinifyOptions) (kept : Bool) (chars : List Char) (w : Written)
    (more : List Char) : squash options kept (chars ++ (w.text ++ more)) =
      squash options kept chars ++ (w.text ++ squash options kept more) := by
  have some : w.text ≠ [] := List.cons_ne_nil _ _
  have starts : ∀ c ∈ (w.text ++ more).head?, isMarkupSpace c = false := by
    rw [List.head?_append, Option.or_of_isSome (List.isSome_head?.mpr some)]
    exact fun c first => w.solid c (List.mem_of_mem_head? first)
  rw [squash, squash, squash]
  split
  · rw [collapse, collapseFrom_append starts, collapse, collapseFrom_solid some w.solid, collapse,
      collapse]
  · rfl

/-- Text that has been read but not yet joined to what follows it. -/
def Located.pending (offset : Nat) (front : List Char) (events : List Located) : List Located :=
  if front = [] then events else (⟨offset, .data front⟩ : Located).before events

theorem pending_before (offset : Nat) (front : List Char) (own : Nat) (c : Char)
    (events : List Located) :
    ∃ start, Located.pending offset front ((⟨own, .data [c]⟩ : Located).before events) =
      Located.pending start (front ++ [c]) events := by
  cases front with
  | nil => exact ⟨own, rfl⟩
  | cons d front =>
      refine ⟨offset, ?_⟩
      simp only [Located.pending, List.cons_ne_nil, List.cons_append, if_false]
      cases events with
      | nil => simp [Located.before]
      | cons located rest =>
          obtain ⟨other, event⟩ := located
          cases event <;> simp [Located.before]

/-- The pieces of text that has been read, and of what follows it. -/
theorem joinTexts_pending (options : MinifyOptions) (open' : List OpenElement) (offset : Nat)
    (front : List Char) {rest : List Located}
    (ends : ∀ located ∈ rest.head?, ∀ text, located.event ≠ .data text) :
    joinTexts (piecesOf options open' (Located.pending offset front rest)) =
      layText (preserves open') (squash options (preserves open') front)
        (joinTexts (piecesOf options open' rest)) := by
  rw [Located.pending]
  split
  · next none =>
      rw [none, squash_eq_nil.mpr rfl, layText_nil]
  · next some =>
      have alone : (⟨offset, .data front⟩ : Located).before rest = ⟨offset, .data front⟩ :: rest := by
        cases rest with
        | nil => rfl
        | cons located others => exact Located.before_cons_of_ne _ (ends located rfl) _
      rw [alone, layText_of_ne (mt squash_eq_nil.mp some)]
      rfl

/-- The pieces of a text of a line, of what has been read in front of it and of what follows it. -/
theorem joinTexts_escapeText (options : MinifyOptions) (open' : List OpenElement) {rest : List Located}
    (ends : ∀ located ∈ rest.head?, ∀ text, located.event ≠ .data text) (chars front : List Char)
    (start offset : Nat) :
    joinTexts (piecesOf options open' (Located.pending start front
      ((eventsFrom offset (chars.map textChunk)).foldr Located.before rest))) =
      layText (preserves open') (squash options (preserves open') (front ++ escapeText chars))
        (joinTexts (piecesOf options open' rest)) := by
  induction chars generalizing front start offset with
  | nil =>
      rw [show escapeText [] = [] from rfl, List.append_nil]
      exact joinTexts_pending options open' start front ends
  | cons c chars ih =>
      rw [List.map_cons, eventsFrom, List.foldr_cons]
      rcases textChunk_cases c with ⟨w, -, chunk, text⟩ | ⟨-, chunk, text⟩
      · -- the reference stands for itself, between the text before it and the text behind it
        have later := ih [] offset (offset + w.text.length)
        rw [List.nil_append] at later
        rw [chunk, escapeText_cons, text, squash_written, ← layText_layText, ← layText_layText,
          ← later, Located.before_of_ne (by simp [Chunk.event]),
          joinTexts_pending options open' start front (by simp [Chunk.event])]
        rw [layText_of_ne (show w.text ≠ [] from List.cons_ne_nil _ _)]
        rfl
      · obtain ⟨start', same⟩ := pending_before start front offset c
          ((eventsFrom (offset + 1) (chars.map textChunk)).foldr Located.before rest)
        rw [chunk, escapeText_cons, text, ← List.append_assoc]
        exact (congrArg _ (congrArg _ same)).trans (ih (front ++ [c]) start' (offset + 1))

/-! ## Open elements -/

/-- On allowed elements the minifier and the tree agree in which have no content, and in whose white
space counts. -/
theorem shape_allowed : ∀ name ∈ allowedElements,
    voidElements.contains name = emptyElements.contains name ∧
      preservedElements.contains name = blankKeepingElements.contains name := by
  decide +kernel

theorem preserves_eq {open' : List OpenElement}
    (allowed : ∀ name ∈ openNames open', name ∈ allowedElements) :
    preserves open' = counts (openNames open') := by
  rw [preserves, counts, openNames, List.any_map, Bool.eq_iff_iff, List.any_eq_true, List.any_eq_true]
  refine exists_congr fun e => and_congr_right fun there => ?_
  rw [(shape_allowed e.name (allowed _ (List.mem_map_of_mem there))).2]
  rfl

/-- A start tag opens its element. -/
theorem nest_opens {name : String} (allowed : name ∈ allowedElements) (open' : List OpenElement)
    (offset : Nat) (attributes : List (String × List Char)) :
    ∃ inner, nest open' ⟨offset, .startTag name (asRead attributes) false⟩ = .ok inner ∧
      openNames inner = entered (openNames open') (.opens name attributes) := by
  have same := (shape_allowed name allowed).1
  rw [nest, entered]
  dsimp only
  rw [same]
  by_cases empty : name ∈ emptyElements
  · exact ⟨open', by simp [empty], by simp [empty]⟩
  · exact ⟨⟨name, offset⟩ :: open', by simp [empty], by simp [empty, openNames]⟩

/-- The end tag of the innermost element closes it. -/
theorem nest_closes {name : String} (allowed : name ∈ allowedElements) {open' : List OpenElement}
    (innermost : name ∉ emptyElements → ∃ outer, openNames open' = name :: outer) (offset : Nat) :
    ∃ inner, nest open' ⟨offset, .endTag name⟩ = .ok inner ∧
      openNames inner = entered (openNames open') (.closes name) := by
  have same := (shape_allowed name allowed).1
  rw [nest, entered]
  dsimp only
  rw [same]
  by_cases empty : name ∈ emptyElements
  · exact ⟨open', by simp [empty], by simp [empty]⟩
  · obtain ⟨outer, names⟩ := innermost empty
    cases open' with
    | nil => cases names
    | cons e rest =>
        obtain ⟨rfl, rfl⟩ := List.cons.inj names
        exact ⟨rest, by simp [empty, closeElement, closeTo], by simp [empty, openNames]⟩

theorem nestAll_ok {open' inner : List OpenElement} {located : Located}
    (h : nest open' located = .ok inner) (rest : List Located) :
    nestAll open' (located :: rest) = nestAll inner rest := by
  rw [nestAll, h]

/-- Text neither opens nor closes an element. -/
theorem nestAll_before (open' : List OpenElement) {located : Located}
    (isText : located.event.mark? = none) (rest : List Located) :
    nestAll open' (located.before rest) = nestAll open' rest := by
  have skip : ∀ {other : Located}, other.event.mark? = none → ∀ others,
      nestAll open' (other :: others) = nestAll open' others := by
    intro other none others
    rw [nestAll, nest_eq_mark, none]
  unfold Located.before
  split
  · rw [skip rfl, skip rfl]
  · exact skip isText _

theorem nestAll_textChunks (open' : List OpenElement) (chars : List Char) (offset : Nat)
    (rest : List Located) :
    nestAll open' ((eventsFrom offset (chars.map textChunk)).foldr Located.before rest) =
      nestAll open' rest := by
  induction chars generalizing offset with
  | nil => rfl
  | cons c chars ih =>
      have isText : (textChunk c).event.mark? = none := by
        rcases textChunk_cases c with ⟨w, -, chunk, -⟩ | ⟨-, chunk, -⟩ <;> rw [chunk] <;> rfl
      exact (nestAll_before open' isText _).trans (ih _)

/-! ## Reading a line -/

/-- Text as the minifier reads it. -/
def squeezing (options : MinifyOptions) : Wording :=
  fun open' _ _ chars => squash options (counts open') chars

theorem squash_escapeText (options : MinifyOptions) (kept : Bool) (chars : List Char) :
    squash options kept (escapeText chars) = escapeText (squash options kept chars) := by
  rw [squash, squash]
  split
  · exact collapse_escapeText chars
  · rfl

/-- The events of a line after a token that is a tag. -/
theorem joined_tag {quote : Quoting} {token : LineToken} {chunk : Chunk}
    (own : token.chunks quote = [chunk]) (isTag : ∀ c, chunk ≠ .plain c) (rest : List LineToken)
    (offset : Nat) :
    joined (eventsFrom offset (lineChunks quote (token :: rest))) =
      ⟨offset, chunk.event⟩ ::
        joined (eventsFrom (offset + chunk.text.length) (lineChunks quote rest)) := by
  rw [lineChunks, List.flatMap_cons, own, List.singleton_append, eventsFrom]
  exact Located.before_of_ne (Chunk.event_ne_data isTag) _

/-- The events of a line after a text. -/
theorem joined_text (quote : Quoting) (chars : List Char) (rest : List LineToken) (offset : Nat) :
    ∃ behind, joined (eventsFrom offset (lineChunks quote (.text chars :: rest))) =
      (eventsFrom offset (chars.map textChunk)).foldr Located.before
        (joined (eventsFrom behind (lineChunks quote rest))) := by
  refine ⟨offset + (textOf (chars.map textChunk)).length, ?_⟩
  rw [lineChunks, List.flatMap_cons, eventsFrom_append, joined, List.foldr_append]
  rfl

/-- A line that starts with no text is read as events that start with no text. -/
theorem joined_starts (quote : Quoting) {tokens : List LineToken}
    (alone : ∀ more, tokens.head? ≠ some (.text more)) (offset : Nat) :
    ∀ located ∈ (joined (eventsFrom offset (lineChunks quote tokens))).head?,
      ∀ text, located.event ≠ .data text := by
  cases tokens with
  | nil => nofun
  | cons token rest =>
      cases token with
      | text chars => exact absurd rfl (alone chars)
      | opens name attributes =>
          have isTag : ∀ c, Chunk.opening name (attributes.map fun a => quote a.1 a.2) ≠ .plain c :=
            fun _ => nofun
          rw [joined_tag rfl isTag]
          rintro located ⟨⟩
          exact Chunk.event_ne_data isTag
      | closes name =>
          have isTag : ∀ c, Chunk.closing name ≠ .plain c := fun _ => nofun
          rw [joined_tag rfl isTag]
          rintro located ⟨⟩
          exact Chunk.event_ne_data isTag

variable {quote : Quoting} {allowLink : List Char → Bool}

theorem allowed_entered {token : LineToken} (own : token.Clean allowLink) {open' : List String}
    (allowed : ∀ name ∈ open', name ∈ allowedElements) :
    ∀ name ∈ entered open' token, name ∈ allowedElements := by
  cases token with
  | text chars => exact allowed
  | opens name attributes =>
      rw [entered]
      split
      · exact allowed
      · exact List.forall_mem_cons.mpr ⟨own.1.1, allowed⟩
  | closes name =>
      rw [entered]
      split
      · exact allowed
      · exact fun other there => allowed other (List.mem_of_mem_tail there)

/-- What a token that is a tag is read as opens or closes its element. -/
theorem nest_tag (faithful : quote.Faithful) {token : LineToken} (own : token.Clean allowLink)
    (isTag : ∀ chars, token ≠ .text chars) {open' : List OpenElement} {finished : List String}
    {rest : List LineToken} (fits : Fits (openNames open') finished (token :: rest)) (offset : Nat) :
    ∃ chunk inner, token.chunks quote = [chunk] ∧ (∀ c, chunk ≠ .plain c) ∧
      nest open' ⟨offset, chunk.event⟩ = .ok inner ∧
      openNames inner = entered (openNames open') token := by
  cases token with
  | text chars => exact absurd rfl (isTag chars)
  | opens name attributes =>
      obtain ⟨inner, nested, names⟩ := nest_opens own.1.1 open' offset attributes
      rw [← LineToken.event_opens faithful] at nested
      exact ⟨_, inner, rfl, fun _ => nofun, nested, names⟩
  | closes name =>
      have innermost : name ∉ emptyElements → ∃ outer, openNames open' = name :: outer := by
        intro filled
        simp only [Fits, if_neg filled] at fits
        obtain ⟨outer, same, -⟩ := fits
        exact ⟨outer, same⟩
      obtain ⟨inner, nested, names⟩ := nest_closes own innermost offset
      exact ⟨_, inner, rfl, fun _ => nofun, nested, names⟩

/-- The tags of a line open and close its elements. -/
theorem nestAll_line (faithful : quote.Faithful) {tokens : List LineToken}
    (clean : ∀ token ∈ tokens, token.Clean allowLink) (open' : List OpenElement)
    {finished : List String} (fits : Fits (openNames open') finished tokens) (offset : Nat) :
    nestAll open' (joined (eventsFrom offset (lineChunks quote tokens))) = .ok [] := by
  induction tokens generalizing open' finished offset with
  | nil =>
      cases open' with
      | nil => rfl
      | cons e outer => cases fits
  | cons token rest ih =>
      rw [List.forall_mem_cons] at clean
      obtain ⟨own, others⟩ := clean
      obtain ⟨after, inside⟩ := fits.entered
      by_cases isTag : ∀ chars, token ≠ .text chars
      · obtain ⟨chunk, inner, same, noText, nested, names⟩ := nest_tag faithful own isTag fits offset
        rw [← names] at inside
        rw [joined_tag same noText, nestAll_ok nested]
        exact ih others inner inside _
      · obtain ⟨chars, rfl⟩ : ∃ chars, token = .text chars := by simpa using isTag
        obtain ⟨behind, split⟩ := joined_text quote chars rest offset
        rw [split, nestAll_textChunks]
        exact ih others open' inside behind

/-- A tag of a line is a piece of it, unless it is the end tag of an element without content. -/
theorem pieceOf_tag (faithful : quote.Faithful) (options : MinifyOptions) (kept : Bool)
    {token : LineToken} (own : token.Clean allowLink) {chunk : Chunk}
    (same : token.chunks quote = [chunk]) (isTag : ∀ chars, token ≠ .text chars) :
    (token.Lasting ∧ pieceOf options kept chunk.event = some (token.piece kept)) ∨
      (∃ name ∈ emptyElements, token = .closes name) ∧ pieceOf options kept chunk.event = none := by
  cases token with
  | text chars => exact absurd rfl (isTag chars)
  | opens name attributes =>
      obtain rfl := List.singleton_injective same
      rw [LineToken.event_opens faithful, pieceOf, writeStartTag_asRead]
      refine Or.inl ⟨?_, rfl⟩
      rintro _ _ ⟨⟩
  | closes name =>
      obtain rfl := List.singleton_injective same
      have void := (shape_allowed name own).1
      rw [Chunk.event, pieceOf, void]
      by_cases empty : name ∈ emptyElements
      · exact Or.inr ⟨⟨name, empty, rfl⟩, if_pos (List.contains_iff_mem.mpr empty)⟩
      · refine Or.inl ⟨?_, ?_⟩
        · rintro other isEmpty ⟨⟩
          exact empty isEmpty
        · rw [if_neg fun there => empty (List.contains_iff_mem.mp there)]
          simp [LineToken.piece, LineToken.chunks, textOf, Chunk.text]

/-- A tag that lasts stands for itself in a line in other words. -/
theorem reworded_tag {wording : Wording} {token : LineToken} (isTag : ∀ chars, token ≠ .text chars)
    (lasting : token.Lasting) (open' : List String) (previous : Option LineToken) (rest : List LineToken) :
    reworded wording open' previous (token :: rest) =
      token :: reworded wording (entered open' token) (some token) rest := by
  cases token with
  | text chars => exact absurd rfl (isTag chars)
  | opens name attributes => rfl
  | closes name => rw [reworded_closes fun empty => lasting name empty rfl, entered,
      if_neg fun empty => lasting name empty rfl]

/-- The minifier makes of a line the pieces of the line as it reads its texts. -/
theorem pieces_line (faithful : quote.Faithful) (options : MinifyOptions) {tokens : List LineToken}
    (clean : ∀ token ∈ tokens, token.Clean allowLink) (apart : Apart tokens)
    (open' : List OpenElement) {finished : List String}
    (fits : Fits (openNames open') finished tokens)
    (allowed : ∀ name ∈ openNames open', name ∈ allowedElements) (previous : Option LineToken)
    (offset : Nat) :
    joinTexts (piecesOf options open' (joined (eventsFrom offset (lineChunks quote tokens)))) =
      linePieces (openNames open')
        (reworded (squeezing options) (openNames open') previous tokens) := by
  induction tokens generalizing open' finished previous offset with
  | nil => rfl
  | cons token rest ih =>
      rw [List.forall_mem_cons] at clean
      obtain ⟨own, others⟩ := clean
      obtain ⟨after, inside⟩ := fits.entered
      have counted := preserves_eq allowed
      have allowed' := allowed_entered own allowed
      by_cases isTag : ∀ chars, token ≠ .text chars
      · obtain ⟨chunk, inner, same, noText, nested, names⟩ := nest_tag faithful own isTag fits offset
        rw [← names] at inside allowed'
        have pieces := ih others apart.tail inner inside allowed' (some token) (offset + chunk.text.length)
        rw [joined_tag same noText, piecesOf, nested]
        dsimp only [Except.toOption, Option.getD_some]
        rcases pieceOf_tag faithful options (preserves open') own same isTag with
          ⟨lasting, piece⟩ | ⟨⟨name, empty, rfl⟩, none⟩
        · have alone : ∀ chars kept, token.piece (preserves open') ≠ .text chars kept := by
            cases token with
            | text chars => exact absurd rfl (isTag chars)
            | opens name attributes => rintro _ _ ⟨⟩
            | closes name => rintro _ _ ⟨⟩
          rw [piece, reworded_tag isTag lasting, linePieces, ← names, ← counted, ← pieces]
          exact joinPiece_of_ne alone _
        · rw [none, reworded_closesEmpty empty]
          rw [entered, if_pos empty] at names
          rw [← names]
          exact pieces
      · -- a text is read in parts, at its references, that are joined again
        obtain ⟨chars, rfl⟩ : ∃ chars, token = .text chars := by simpa using isTag
        obtain ⟨-, alone, later⟩ := apart
        obtain ⟨behind, split⟩ := joined_text quote chars rest offset
        have pieces := ih others later open' inside allowed (some (.text chars)) behind
        have text := joinTexts_escapeText options open' (joined_starts quote alone behind)
          chars [] offset offset
        rw [split]
        refine text.trans ?_
        rw [List.nil_append, pieces, counted, squash_escapeText, ← linePieces_before]
        rfl

/-! ## Trimming -/

/-- Text as the minifier trims it between its neighbours. -/
def trimming : Wording := fun open' previous next chars =>
  if counts open' then chars
  else trimText (previous.map (LineToken.piece false)) (next.map (LineToken.piece false)) chars

/-- Neighbours matter to trimming only as edges. -/
theorem trimText_congr {previous previous' next next' : Option Piece}
    (front : isEdge previous = isEdge previous') (back : isEdge next = isEdge next')
    (chars : List Char) : trimText previous next chars = trimText previous' next' chars := by
  rw [trimText, trimText, front, back]

theorem isEdge_piece (kept : Bool) (token : LineToken) :
    isEdge (some (token.piece kept)) = isEdge (some (token.piece false)) := by
  cases token <;> rfl

theorem isEdge_head?_linePieces (open' : List String) (tokens : List LineToken) :
    isEdge (linePieces open' tokens).head? = isEdge (tokens.head?.map (LineToken.piece false)) := by
  cases tokens with
  | nil => rfl
  | cons token rest => exact isEdge_piece (counts open') token

/-- The pieces of a line are trimmed as its texts are. -/
theorem trimPieces_linePieces {tokens : List LineToken} (apart : Apart tokens)
    (lasting : ∀ token ∈ tokens, token.Lasting) (open' : List String) (before : Option Piece)
    (previous : Option LineToken) (edge : isEdge before = isEdge (previous.map (LineToken.piece false))) :
    trimPieces before (linePieces open' tokens) =
      linePieces open' (reworded trimming open' previous tokens) := by
  induction tokens generalizing open' before previous with
  | nil => rfl
  | cons token rest ih =>
      rw [List.forall_mem_cons] at lasting
      obtain ⟨own, others⟩ := lasting
      by_cases isTag : ∀ chars, token ≠ .text chars
      · have stays : ∀ chars, token.piece (counts open') ≠ .text chars false := by
          cases token with
          | text chars => exact absurd rfl (isTag chars)
          | opens name attributes => exact fun _ => nofun
          | closes name => exact fun _ => nofun
        rw [reworded_tag isTag own, linePieces, linePieces, trimPieces_of_ne stays,
          ih apart.tail others _ _ (some token) (isEdge_piece _ token)]
      · obtain ⟨chars, rfl⟩ : ∃ chars, token = .text chars := by simpa using isTag
        obtain ⟨some', alone, later⟩ := apart
        have behind := ih later others open' (some (.text (escapeText chars) (counts open')))
          (some (.text chars)) (isEdge_piece _ (.text chars))
        -- tags last, so no text comes to stand behind this one when others are trimmed away
        have starts : ∀ more counted,
            (linePieces open' (reworded trimming open' (some (.text chars)) rest)).head? ≠
              some (.text more counted) := by
          have head := head?_reworded trimming open' (some (.text chars)) alone others
          generalize reworded trimming open' (some (.text chars)) rest = words at head
          intro more counted there
          cases words with
          | nil => cases there
          | cons token words =>
              cases token with
              | text own => exact alone own head.symm
              | opens name attributes => cases there
              | closes name => cases there
        have same : entered open' (.text chars) = open' := rfl
        rw [reworded_text, linePieces_before, linePieces, same, LineToken.piece, trimming]
        cases counted : counts open' with
        | true =>
            rw [counted] at behind
            rw [if_pos rfl, layText_of_ne (fun nothing => some' (escapeText_eq_nil.mp nothing)),
              joinPiece_of_head _ starts, ← behind]
            exact trimPieces_of_ne (fun _ same => by cases same) _ _
        | false =>
            rw [counted] at behind
            have words : trimText before (linePieces open' rest).head? (escapeText chars) =
                escapeText (trimText (previous.map (LineToken.piece false))
                  (rest.head?.map (LineToken.piece false)) chars) := by
              rw [trimText_congr edge (isEdge_head?_linePieces open' rest), trimText_escapeText]
            rw [if_neg (by decide), trimPieces_uncounted, words, layText]
            split
            · exact behind
            · rw [joinPiece_of_head _ starts, ← behind]

/-! ## A line, minified -/

/-- A line as the minifier has it. -/
def minifiedLine (options : MinifyOptions) (tokens : List LineToken) : List LineToken :=
  let squeezed := reworded (squeezing options) [] none tokens
  if options.collapseWhitespace then reworded trimming [] none squeezed else squeezed

/-- What the minifier makes of a line is a line of the same kind. -/
theorem minifiedLine_spec (options : MinifyOptions) {tokens : List LineToken}
    (clean : ∀ token ∈ tokens, token.Clean allowLink) (fits : Fits [] [] tokens) :
    Apart (minifiedLine options tokens) ∧
      (∀ token ∈ minifiedLine options tokens, token.Lasting) ∧
      Fits [] [] (minifiedLine options tokens) ∧
      ∀ token ∈ minifiedLine options tokens, token.Clean allowLink := by
  have texts : ∀ chars, (LineToken.text chars).Clean allowLink := fun _ => trivial
  obtain ⟨apart, lasting, nests, all⟩ := reworded_spec (squeezing options) fits none
  have squeezed := all texts clean
  rw [minifiedLine]
  split
  · obtain ⟨apart', lasting', nests', all'⟩ := reworded_spec trimming (nests []) none
    exact ⟨apart', lasting', nests' [], all' texts squeezed⟩
  · exact ⟨apart, lasting, nests [], squeezed⟩

/-- The pieces that a line is minified to. -/
theorem minifyEvents_line (faithful : quote.Faithful) (options : MinifyOptions)
    {tokens : List LineToken} (clean : ∀ token ∈ tokens, token.Clean allowLink) (apart : Apart tokens)
    (fits : Fits [] [] tokens) :
    minifyEvents options (joined (eventsFrom 0 (lineChunks quote tokens))) =
      linePieces [] (minifiedLine options tokens) := by
  have pieces := pieces_line faithful options clean apart [] fits nofun none 0
  obtain ⟨apart', lasting, -, -⟩ := reworded_spec (squeezing options) fits none
  rw [minifyEvents, minifiedLine, pieces]
  split
  · exact trimPieces_linePieces apart' lasting [] none none rfl
  · rfl

/-- A line is minified to a line. -/
theorem minify_lineText (faithful : quote.Faithful) (options : MinifyOptions)
    {tokens : List LineToken} (clean : ∀ token ∈ tokens, token.Clean allowLink) (apart : Apart tokens)
    (fits : Fits [] [] tokens) :
    minify options (lineText quote tokens) =
      .ok (lineText minifiedAttribute (minifiedLine options tokens)) := by
  have page := tokenize_lineText faithful fun token there => (clean token there).proper
  have nested := nestAll_line faithful clean [] fits 0
  have accepted : checkPage ⟨joined (eventsFrom 0 (lineChunks quote tokens)), none⟩ = .ok () := by
    rw [checkPage, nested]
    rfl
  rw [minify, page]
  dsimp only
  rw [accepted, minifyEvents_line faithful options clean apart fits, chars_linePieces]

/-! ## Lines whose texts are as they should be -/

variable {wording : Wording} {open' : List String} {tokens : List LineToken}

/-- A line is the same in words that leave its texts alone. -/
theorem reworded_eq_self (wording : Wording) {holds : List Char → Prop}
    (same : ∀ open' previous next chars, (counts open' = false → holds (escapeText chars)) →
      wording open' previous next chars = chars)
    (apart : Apart tokens) (lasting : ∀ token ∈ tokens, token.Lasting) {before : Option Piece}
    (h : OfTexts (fun _ _ => holds) before (linePieces open' tokens)) (previous : Option LineToken) :
    reworded wording open' previous tokens = tokens := by
  induction tokens generalizing open' before previous with
  | nil => rfl
  | cons token rest ih =>
      rw [List.forall_mem_cons] at lasting
      obtain ⟨own, others⟩ := lasting
      obtain ⟨first, behind⟩ := ofTexts_cons.mp h
      have later := ih apart.tail others behind (some token)
      by_cases isTag : ∀ chars, token ≠ .text chars
      · rw [reworded_tag isTag own, later]
      · obtain ⟨chars, rfl⟩ : ∃ chars, token = .text chars := by simpa using isTag
        obtain ⟨some', alone, -⟩ := apart
        have own : wording open' previous rest.head? chars = chars := by
          refine same _ _ _ _ fun counted => first (escapeText chars) ?_
          rw [LineToken.piece, counted]
        have behind : reworded wording open' (some (.text chars)) rest = rest := later
        rw [reworded_text, own, behind, before_of_apart some' alone]

theorem reworded_keeping (apart : Apart tokens) (lasting : ∀ token ∈ tokens, token.Lasting) :
    reworded keeping [] none tokens = tokens := by
  have all : OfTexts (fun _ _ _ => True) none (linePieces [] tokens) := fun _ _ _ _ => trivial
  exact reworded_eq_self keeping (fun _ _ _ _ _ => rfl) apart lasting all none

/-- What holds of all that texts are worded as holds of the texts of a line in these words. -/
theorem ofTexts_reworded {holds : List Char → Prop}
    (words : ∀ open' previous next chars, chars ≠ [] → counts open' = false →
      holds (escapeText (wording open' previous next chars)))
    (apart : Apart tokens) (lasting : ∀ token ∈ tokens, token.Lasting) (before : Option Piece)
    (previous : Option LineToken) :
    OfTexts (fun _ _ => holds) before (linePieces open' (reworded wording open' previous tokens)) := by
  induction tokens generalizing open' before previous with
  | nil => exact ofTexts_nil
  | cons token rest ih =>
      rw [List.forall_mem_cons] at lasting
      obtain ⟨own, others⟩ := lasting
      by_cases isTag : ∀ chars, token ≠ .text chars
      · rw [reworded_tag isTag own, linePieces]
        refine ofTexts_cons.mpr ⟨fun chars isText => ?_, ih apart.tail others _ _⟩
        cases token with
        | text words => exact absurd rfl (isTag words)
        | opens name attributes => cases isText
        | closes name => cases isText
      · obtain ⟨chars, rfl⟩ : ∃ chars, token = .text chars := by simpa using isTag
        obtain ⟨some', alone, later⟩ := apart
        rw [reworded_text]
        by_cases none : wording open' previous rest.head? chars = []
        · rw [none]
          exact ih later others before (some (.text chars))
        · have alone' : ∀ more,
              (reworded wording open' (some (.text chars)) rest).head? ≠ some (.text more) := by
            intro more
            rw [head?_reworded _ _ _ alone others]
            exact alone more
          rw [before_of_apart none alone', linePieces]
          refine ofTexts_cons.mpr ⟨fun own isText => ?_, ih later others _ _⟩
          rw [LineToken.piece] at isText
          injection isText with same counted
          rw [← same]
          exact words open' previous rest.head? chars some' counted

end MessageCatalog.Markup
