import MessageCatalog.Proofs.Markup.Stack
import MessageCatalog.Proofs.Markup.TextContent
import MessageCatalog.Proofs.Markup.Token

/-!
# MessageCatalog.Proofs.Markup.Rebuilt -- a line of tokens through the tree and back

The tree that is built from a line of tokens is written as the line again, with two changes. Text
that is all white space shrinks, and the end tags of elements without content are gone, so that the
texts around them become one. What a builder has read is written as it reads: each token adds its
own text, whatever comes later.
-/

namespace MessageCatalog.Markup

open MessageCatalog.Text

/-! ## Blank text -/

/-- A text as the tree keeps it inside some open elements. -/
def settledIn (open' : List String) (chars : List Char) : List Char :=
  if chars.isEmpty || open'.any blankKeepingElements.contains then chars
  else if chars.all isMarkupSpace then (if chars.contains '\n' then ['\n'] else [' '])
  else chars

theorem settledIn_nil (open' : List String) : settledIn open' [] = [] := rfl

/-- The line that is written once a line has been read inside some open elements, behind some text
that has been read already. -/
def rewritten (open' : List String) (pending : List Char) : List LineToken → List Char
  | [] => escapeText (settledIn open' pending)
  | .text chars :: rest => rewritten open' (pending ++ chars) rest
  | .opens name attributes :: rest =>
    escapeText (settledIn open' pending) ++ (LineToken.opens name attributes).write ++
      rewritten (if name ∈ emptyElements then open' else name :: open') [] rest
  | .closes name :: rest =>
    if name ∈ emptyElements then rewritten open' pending rest
    else escapeText (settledIn open' pending) ++ (LineToken.closes name).write ++
      rewritten open'.tail [] rest

/-! ## What a builder has written -/

theorem renderNodes_append (nodes others : List Node) :
    renderNodes true (nodes ++ others) = renderNodes true nodes ++ renderNodes true others := by
  induction nodes with
  | nil => rfl
  | cons node rest ih => rw [List.cons_append, renderNodes, renderNodes, ih, List.append_assoc]

/-- Open elements as they are written so far. -/
def writtenOpen : List OpenNode → List Char
  | [] => []
  | inner :: outer =>
    writtenOpen outer ++ inner.tag.render ++ renderNodes true inner.children.reverse

namespace Builder

/-- What a builder has read, as it is written, without the text that it still holds back. -/
def written (b : Builder) : List Char :=
  renderNodes true b.roots.reverse ++ writtenOpen b.opened

variable {b : Builder}

theorem written_add (b : Builder) (node : Node) :
    (b.add node).written = b.written ++ node.render true := by
  obtain ⟨opened, roots, pending, finished⟩ := b
  cases opened with
  | nil => simp [add, written, writtenOpen, renderNodes_append, renderNodes]
  | cons inner outer => simp [add, written, writtenOpen, renderNodes_append, renderNodes]

theorem opened_add (b : Builder) (node : Node) :
    (b.add node).opened.map (fun e => e.tag.name) = b.opened.map (fun e => e.tag.name) := by
  obtain ⟨opened, roots, pending, finished⟩ := b
  cases opened <;> rfl

/-- What a builder has read: the names of the elements that are open and of those without content
that are finished, the text that is held back and what is written. -/
structure Has (b : Builder) (open' finished : List String) (pending written : List Char) :
    Prop where
  opened : b.opened.map (fun e => e.tag.name) = open'
  finished : b.finished = finished
  pending : b.pending = pending
  written : b.written = written

variable {open' finished : List String} {pending written : List Char}

theorem shrink_eq (opened : b.opened.map (fun e => e.tag.name) = open') {chars : List Char}
    (some : chars ≠ []) : b.shrink chars = settledIn open' chars := by
  have inside : (b.opened.any fun e => blankKeepingElements.contains e.tag.name) =
      open'.any blankKeepingElements.contains := by
    rw [← opened, List.any_map]
    rfl
  have nonempty : chars.isEmpty = false := by simpa using some
  rw [shrink, settledIn, inside, nonempty, Bool.false_or]

/-- The text that was held back is written. -/
theorem Has.flush (h : b.Has open' finished pending written) :
    b.flush.Has open' finished [] (written ++ escapeText (settledIn open' pending)) := by
  unfold Builder.flush
  split
  · next nothing =>
      rw [List.isEmpty_iff] at nothing
      have none := h.pending.symm.trans nothing
      subst none
      rw [settledIn_nil]
      exact ⟨h.opened, h.finished, nothing, h.written.trans (List.append_nil _).symm⟩
  · next more =>
      have some : b.pending ≠ [] := fun nothing => more (by rw [nothing]; rfl)
      refine ⟨(opened_add b _).trans h.opened, ?_, rfl, ?_⟩
      · rw [← h.finished]
        cases b.opened <;> simp only [add] <;> split <;> rfl
      · have added := written_add b (.text (b.shrink b.pending))
        rw [Node.render_text, h.written] at added
        rw [← h.pending, ← shrink_eq h.opened some]
        exact added

theorem Has.openTag (h : b.Has open' finished pending written) (tag : Tag) :
    (b.openTag tag).Has (tag.name :: open') finished []
      (written ++ escapeText (settledIn open' pending) ++ tag.render) := by
  obtain ⟨opened, same, none, text⟩ := h.flush
  refine ⟨congrArg (tag.name :: ·) opened, same, none, ?_⟩
  rw [← text]
  simp [Builder.openTag, Builder.written, writtenOpen, renderNodes]

/-! ## Closing -/

theorem write_closes (name : String) :
    (LineToken.closes name).write = (Chunk.closing name).text := List.append_nil _

/-- The innermost element is written with its end tag when it is closed, unless it is one without
content and has none. -/
theorem written_closeInnermost {inner : OpenNode} {outer : List OpenNode}
    (h : b.opened = inner :: outer) (escaped : inner.tag.name ∉ unescapedElements) :
    b.closeInnermost.written = b.written ++
      if inner.children.isEmpty && emptyElements.contains inner.tag.name then []
      else (LineToken.closes inner.tag.name).write := by
  have added := written_add { b with opened := outer } inner.close
  have closed : b.closeInnermost = { b with opened := outer }.add inner.close := by
    rw [Builder.closeInnermost, h]
  have before : b.written = { b with opened := outer }.written ++ inner.tag.render ++
      renderNodes true inner.children.reverse := by
    rw [Builder.written, Builder.written, h, writtenOpen]
    simp only [List.append_assoc]
  have empty : inner.children.reverse.isEmpty = inner.children.isEmpty := by
    cases inner.children <;> simp
  rw [closed, added, OpenNode.close, Node.render_element _ escaped, before, empty, write_closes]
  simp only [List.append_assoc]

theorem Has.closed {inner : OpenNode} {outer : List OpenNode} (opened : b.opened = inner :: outer)
    {name : String} (h : b.Has (name :: open') finished pending written)
    (escaped : name ∉ unescapedElements) :
    inner.tag.name = name ∧ b.closeInnermost.Has open' finished pending (written ++
      if inner.children.isEmpty && emptyElements.contains name then []
      else (LineToken.closes name).write) := by
  have names := h.opened
  rw [opened, List.map_cons] at names
  obtain ⟨rfl, rest⟩ := List.cons.inj names
  have closed : b.closeInnermost = { b with opened := outer }.add inner.close := by
    rw [Builder.closeInnermost, opened]
  refine ⟨rfl, ?_, ?_, ?_, ?_⟩
  · rw [closed, opened_add]
    exact rest
  · rw [closed, ← h.finished]
    cases outer <;> rfl
  · rw [closed, ← h.pending]
    cases outer <;> rfl
  · rw [written_closeInnermost opened escaped, h.written]

/-! ## Tokens -/

/-- The start tag of an element with content opens it. -/
theorem Has.read_opens (h : b.Has open' finished pending written) {name : String}
    (filled : name ∉ emptyElements) (attributes : List Attribute) (offset : Nat) :
    (b.read ⟨offset, .startTag name attributes false⟩).Has (name :: open') finished []
      (written ++ escapeText (settledIn open' pending) ++
        (⟨name, attributesOf name attributes, offset⟩ : Tag).render) := by
  have kept : ¬emptyElements.contains name = true := by simpa using filled
  have read : b.read ⟨offset, .startTag name attributes false⟩ =
      b.openTag ⟨name, attributesOf name attributes, offset⟩ := by
    simp only [Builder.read, if_neg kept, Bool.false_eq_true, if_false]
  rw [read]
  exact h.openTag ⟨name, attributesOf name attributes, offset⟩

/-- The start tag of an element without content is written and leaves the element finished. -/
theorem Has.read_opensEmpty (h : b.Has open' finished pending written) {name : String}
    (empty : name ∈ emptyElements) (escaped : name ∉ unescapedElements)
    (attributes : List Attribute) (offset : Nat) :
    (b.read ⟨offset, .startTag name attributes false⟩).Has open' (finished ++ [name]) []
      (written ++ escapeText (settledIn open' pending) ++
        (⟨name, attributesOf name attributes, offset⟩ : Tag).render) := by
  have isEmpty : emptyElements.contains name = true := by simpa using empty
  have opened := h.openTag ⟨name, attributesOf name attributes, offset⟩
  have innermost : (b.openTag ⟨name, attributesOf name attributes, offset⟩).opened =
      ⟨⟨name, attributesOf name attributes, offset⟩, []⟩ :: b.flush.opened := rfl
  -- nothing is held back behind a start tag, so closing writes nothing in front of the end
  have held : (b.openTag ⟨name, attributesOf name attributes, offset⟩).flush =
      b.openTag ⟨name, attributesOf name attributes, offset⟩ := by
    rw [Builder.flush, opened.pending, List.isEmpty_nil, if_pos rfl]
  have closed := (opened.closed innermost escaped).2
  rw [isEmpty, List.isEmpty_nil, Bool.and_self, if_pos rfl, List.append_nil] at closed
  have closes : (b.openTag ⟨name, attributesOf name attributes, offset⟩).closeTag name =
      (b.openTag ⟨name, attributesOf name attributes, offset⟩).closeInnermost := by
    exact (closeTag_eq (held.symm ▸ innermost) rfl).trans (congrArg _ held)
  have read : b.read ⟨offset, .startTag name attributes false⟩ =
      { (b.openTag ⟨name, attributesOf name attributes, offset⟩).closeInnermost with
        finished := (b.openTag ⟨name, attributesOf name attributes, offset⟩).closeInnermost.finished
          ++ [name] } := by
    simp only [Builder.read, if_pos isEmpty, Bool.false_eq_true, if_false, closes]
  rw [read]
  exact ⟨closed.opened, congrArg (· ++ [name]) closed.finished, closed.pending, closed.written⟩

/-- The end tag of the innermost element closes it. -/
theorem Has.read_closes {name : String} (h : b.Has (name :: open') finished pending written)
    (filled : name ∉ emptyElements) (escaped : name ∉ unescapedElements)
    (apart : ∀ other ∈ finished, other ∈ emptyElements) (offset : Nat) :
    (b.read ⟨offset, .endTag name⟩).Has open' finished []
      (written ++ escapeText (settledIn (name :: open') pending) ++ (LineToken.closes name).write) := by
  have flushed := h.flush
  have innermost : ∃ inner outer, b.flush.opened = inner :: outer := by
    have names := flushed.opened
    cases opened : b.flush.opened with
    | nil =>
        rw [opened] at names
        cases names
    | cons inner outer => exact ⟨inner, outer, rfl⟩
  obtain ⟨inner, outer, opened⟩ := innermost
  obtain ⟨rfl, closed⟩ := flushed.closed opened escaped
  have kept : ¬(inner.children.isEmpty && emptyElements.contains inner.tag.name) = true := by
    simp [filled]
  rw [if_neg kept] at closed
  -- only elements without content are finished, so this end tag is not one of theirs
  have other : ¬b.finished.contains inner.tag.name = true := by
    rw [h.finished, List.contains_iff_mem]
    exact fun there => filled (apart _ there)
  show (b.endTag inner.tag.name).Has open' finished [] _
  rw [Builder.endTag, if_neg other, closeTag_eq opened rfl]
  exact closed

/-- The end tag of an element without content takes it off the finished ones. -/
theorem Has.read_closesEmpty {name : String} (h : b.Has open' finished pending written)
    (there : name ∈ finished) (offset : Nat) :
    (b.read ⟨offset, .endTag name⟩).Has open' (finished.erase name) pending written := by
  have own : b.finished.contains name = true := by
    rw [h.finished]
    simpa using there
  show (b.endTag name).Has open' (finished.erase name) pending written
  rw [Builder.endTag, if_pos own, h.finished]
  exact ⟨h.opened, rfl, h.pending, h.written⟩

theorem Has.addText (h : b.Has open' finished pending written) (chars : List Char) :
    (b.addText chars).Has open' finished (pending ++ chars) written :=
  ⟨h.opened, h.finished, congrArg (· ++ chars) h.pending, h.written⟩

theorem Has.finish (h : b.Has [] finished pending written) :
    render b.finish = written ++ escapeText (settledIn [] pending) := by
  have flushed := h.flush
  have closed : b.flush.opened = [] := List.map_eq_nil_iff.mp flushed.opened
  rw [← flushed.written, Builder.finish, closed, Builder.closeMany, render, Builder.written, closed,
    writtenOpen, List.append_nil]

end Builder

/-! ## A line -/

/-- A token that a tree can have after sanitizing: allowed tags with settled attributes in order. -/
def LineToken.Clean (allowLink : List Char → Bool) : LineToken → Prop
  | .text _ => True
  | .opens name attributes => (name ∈ allowedElements ∧ ∀ a ∈ attributes,
      a.1 ∈ allowedAttributes ∧ (a.1 ∈ linkAttributes → allowLink a.2 = true)) ∧
      SettledAttributes name attributes ∧ inOrder attributes = attributes
  | .closes name => name ∈ allowedElements

variable {allowLink : List Char → Bool}

theorem LineToken.Clean.proper {token : LineToken} (h : token.Clean allowLink) : token.Proper := by
  cases token with
  | text chars => trivial
  | opens name attributes =>
      obtain ⟨⟨allowed, kept⟩, -⟩ := h
      exact ⟨(allowedElements_isName name allowed).1, (allowedElements_isName name allowed).2,
        fun a there => allowedAttributes_isName a.1 (kept a there).1⟩
  | closes name => exact (allowedElements_isName name h).1

/-- A start tag with settled attributes is written as it was read. -/
theorem render_opens {name : String} {attributes : List (String × List Char)}
    (settled : SettledAttributes name attributes) (order : inOrder attributes = attributes)
    (offset : Nat) :
    (⟨name, attributesOf name (asRead attributes), offset⟩ : Tag).render =
      (LineToken.opens name attributes).write := by
  rw [settled.read, Tag.render_eq, LineToken.write]
  show (Chunk.opening name ((inOrder attributes).map _)).text = _
  rw [order]
  exact (List.append_nil _).symm

/-- A line of clean tokens that nest is read up to its end, and what the builder has then is written
as the line is rewritten. -/
theorem render_finish_line {quote : Quoting} (faithful : quote.Faithful) {tokens : List LineToken}
    (clean : ∀ token ∈ tokens, token.Clean allowLink) {b : Builder} {open' finished : List String}
    {pending written : List Char} (fits : Fits open' finished tokens)
    (empty : ∀ name ∈ finished, name ∈ emptyElements)
    (h : b.Has open' finished pending written) (offset : Nat) :
    render ((eventsFrom offset (lineChunks quote tokens)).foldl Builder.read b).finish =
      written ++ rewritten open' pending tokens := by
  induction tokens generalizing b open' finished pending written offset with
  | nil =>
      cases fits
      exact h.finish
  | cons token rest ih =>
      rw [List.forall_mem_cons] at clean
      obtain ⟨own, others⟩ := clean
      rw [lineChunks, List.flatMap_cons, eventsFrom_append, List.foldl_append, ← lineChunks]
      cases token with
      | text chars =>
          rw [LineToken.chunks, foldl_read_textChunks]
          exact ih others fits empty (h.addText chars) _
      | opens name attributes =>
          obtain ⟨⟨allowed, -⟩, settled, order⟩ := own
          have escaped := (allowedElements_isName name allowed).2
          have event := LineToken.event_opens faithful name attributes
          simp only [LineToken.chunks, eventsFrom, List.foldl_cons, List.foldl_nil, event]
          simp only [Fits] at fits
          split at fits
          · next isEmpty =>
              have read := h.read_opensEmpty isEmpty escaped (asRead attributes) offset
              rw [render_opens settled order] at read
              rw [ih others fits ?_ read, rewritten, if_pos isEmpty]
              · simp only [List.append_assoc]
              · intro other there
                rcases List.mem_append.mp there with before | last
                · exact empty other before
                · exact List.mem_singleton.mp last ▸ isEmpty
          · next filled =>
              have read := h.read_opens filled (asRead attributes) offset
              rw [render_opens settled order] at read
              rw [ih others fits empty read, rewritten, if_neg filled]
              simp only [List.append_assoc]
      | closes name =>
          have escaped := (allowedElements_isName name own).2
          simp only [LineToken.chunks, eventsFrom, List.foldl_cons, List.foldl_nil]
          simp only [Fits] at fits
          split at fits
          · next isEmpty =>
              obtain ⟨there, fits⟩ := fits
              rw [rewritten, if_pos isEmpty]
              exact ih others fits (fun other inside => empty other (List.mem_of_mem_erase inside))
                (h.read_closesEmpty there offset) _
          · next filled =>
              obtain ⟨outer, rfl, fits⟩ := fits
              have read := h.read_closes filled escaped empty offset
              have later := ih others fits empty read
              rw [rewritten, if_neg filled, List.tail_cons]
              refine (later _).trans ?_
              simp only [List.append_assoc]

/-! ## What is allowed stays -/

theorem allowedElements_kept : ∀ name ∈ allowedElements, name ∉ droppedElements := by
  decide +kernel

mutual
theorem Node.sanitize_allowed (node : Node) (allowed : ∀ part ∈ node.parts, part.Allowed allowLink) :
    node.sanitize allowLink = [node] := by
  match node with
  | .text chars => rw [Node.sanitize]
  | .characterData _ | .comment _ | .declaration _ | .documentType _ | .instruction _ =>
      exact (allowed _ (List.mem_singleton.mpr rfl)).elim
  | .element tag children =>
      rw [Node.parts, List.forall_mem_cons] at allowed
      obtain ⟨⟨element, attributes⟩, inside⟩ := allowed
      have same := (allowedElements_isName _ element).1.nameOf_eq
      have kept : tag.clean allowLink = tag := by
        have all : ∀ a ∈ tag.attributes, keepsAttribute allowLink a.1 a.2 = true := by
          intro a there
          obtain ⟨known, link⟩ := attributes a there
          rw [keepsAttribute, (allowedAttributes_isName _ known).nameOf_eq]
          by_cases isLink : a.1 ∈ linkAttributes <;> simp_all
        rw [Tag.clean, List.filter_eq_self.mpr all]
      rw [Node.sanitize, same, if_neg (by simpa using allowedElements_kept _ element), if_pos (by simpa using element),
        kept, sanitizeNodes_allowed children inside]

/-- A tree of allowed parts is not changed by sanitizing. -/
theorem sanitizeNodes_allowed (nodes : List Node)
    (allowed : ∀ part ∈ partsOf nodes, part.Allowed allowLink) :
    sanitizeNodes allowLink nodes = nodes := by
  match nodes with
  | [] => rw [sanitizeNodes]
  | node :: rest =>
      rw [partsOf, List.forall_mem_append] at allowed
      rw [sanitizeNodes, Node.sanitize_allowed node allowed.1, sanitizeNodes_allowed rest allowed.2]
      rfl
end

/-- The parts of the tree that is built from a line of clean tokens are allowed. -/
theorem allowed_line {quote : Quoting} (faithful : quote.Faithful) {tokens : List LineToken}
    (clean : ∀ token ∈ tokens, token.Clean allowLink) :
    ∀ part ∈ partsOf (treeOf (joined (eventsFrom 0 (lineChunks quote tokens)))),
      part.Allowed allowLink := by
  -- an event that is no text is that of a tag of the line
  have known : ∀ located ∈ joined (eventsFrom 0 (lineChunks quote tokens)),
      (∀ text, located.event ≠ .data text) → ∃ token ∈ tokens, ∃ chunk ∈ token.chunks quote,
        located.event = chunk.event := by
    intro located there other
    obtain ⟨chunk, among, event⟩ := mem_eventsFrom ((mem_joined other).mp there)
    obtain ⟨token, inside, own⟩ := List.mem_flatMap.mp among
    exact ⟨token, inside, chunk, own, event⟩
  rintro (tag | leaf) there
  · obtain ⟨located, found, name, attributes, selfClosing, event, rfl⟩ := tag_mem_treeOf.mp there
    obtain ⟨token, inside, chunk, own, same⟩ := known located found (by simp [event])
    rw [event] at same
    cases token with
    | text chars =>
        obtain ⟨c, -, rfl⟩ := List.mem_map.mp own
        rcases textChunk_cases c with ⟨w, -, chunk, -⟩ | ⟨-, chunk, -⟩ <;> rw [chunk] at same <;>
          cases same
    | opens n values =>
        obtain ⟨allowed, settled, -⟩ := clean _ inside
        rw [List.mem_singleton.mp own, LineToken.event_opens faithful] at same
        cases same
        rw [settled.read]
        exact allowed
    | closes n =>
        rw [List.mem_singleton.mp own] at same
        cases same
  · obtain ⟨located, found, makes⟩ := leaf_mem_treeOf there
    obtain ⟨token, inside, chunk, own, same⟩ := known located found (by
      rintro text isText
      rw [isText] at makes
      exact makes)
    rw [same] at makes
    cases token with
    | text chars =>
        obtain ⟨c, -, rfl⟩ := List.mem_map.mp own
        rcases textChunk_cases c with ⟨w, -, chunk, -⟩ | ⟨-, chunk, -⟩ <;> rw [chunk] at makes <;>
          exact makes.elim
    | opens n values =>
        rw [List.mem_singleton.mp own] at makes
        exact makes.elim
    | closes n =>
        rw [List.mem_singleton.mp own] at makes
        exact makes.elim

/-- A line of clean tokens that nest is sanitized by rewriting it. -/
theorem sanitizeMarkup_lineText {quote : Quoting} (faithful : quote.Faithful) {tokens : List LineToken}
    (clean : ∀ token ∈ tokens, token.Clean allowLink) (fits : Fits [] [] tokens) :
    sanitizeMarkup allowLink (lineText quote tokens) = .ok (rewritten [] [] tokens) := by
  have page := tokenize_lineText faithful fun token there => (clean token there).proper
  have start : Builder.empty.Has [] [] [] [] := ⟨rfl, rfl, rfl, rfl⟩
  have written := render_finish_line faithful clean fits nofun start 0
  have allowed := sanitizeNodes_allowed _ (allowed_line faithful clean)
  rw [sanitizeMarkup, parse, page]
  dsimp only [Except.map]
  rw [allowed, treeOf, foldl_read_joined, written]
  rfl

/-! ## Sanitized markup is a line -/

/-- The attributes of an element that was sanitized are settled. -/
theorem settledAttributes_sanitized {markup : List Char} {nodes : List Node}
    (read : parse markup = .ok nodes) {tag : Tag}
    (there : .tag tag ∈ partsOf (sanitizeNodes allowLink nodes)) :
    SettledAttributes tag.name tag.attributes := by
  rcases sanitizeNodes_survives nodes _ there with ⟨own, same, found, -⟩ | ⟨chars, same, -⟩
  · rw [parse_eq_ok read] at found
    obtain ⟨located, -, name, attributes, -, -, rfl⟩ := tag_mem_treeOf.mp found
    cases same
    exact (settledAttributes_attributesOf name attributes).filter _
  · cases same

/-- Sanitized markup without character data is a line of clean tokens that nest, its texts joined. -/
theorem exists_line {markup out : List Char} (h : sanitizeMarkup allowLink markup = .ok out)
    (cleanOut : CleanMarkup allowLink out) :
    ∃ tokens, out = lineText writtenAttribute tokens ∧ (∀ token ∈ tokens, token.Clean allowLink) ∧
      Fits [] [] tokens ∧ Apart tokens := by
  obtain ⟨nodes, read, rfl, proper, allowed⟩ := sanitizeMarkup_eq_ok h
  have noData : ∀ chars, .leaf (.characterData chars) ∉
      partsOf (sanitizeNodes allowLink nodes) := fun chars there =>
    (render_clean_iff proper allowed).mp cleanOut ⟨chars, there⟩
  obtain ⟨apart, same, fits, all⟩ := glued_spec (tokensOf (sanitizeNodes allowLink nodes))
  refine ⟨glued (tokensOf (sanitizeNodes allowLink nodes)), ?_, ?_, ?_, apart⟩
  · rw [same, render, renderNodes_eq _ proper, chunksOf_eq _ noData, lineText]
  · refine all (fun chars => trivial) fun token there => ?_
    rcases mem_tokensOf _ there with ⟨chars, rfl⟩ | ⟨tag, found, rfl | rfl⟩
    · trivial
    · obtain ⟨element, attributes⟩ := allowed tag found
      have perm := inOrder_perm tag.attributes
      exact ⟨⟨element, fun a inside => attributes a (perm.mem_iff.mp inside)⟩,
        (settledAttributes_sanitized read found).perm perm, inOrder_inOrder _⟩
    · exact (allowed tag found).1
  · have nested : Fits [] [] (tokensOf (sanitizeNodes allowLink nodes) ++ []) :=
      fits_tokensOf _ fun _ _ => rfl
    rw [List.append_nil] at nested
    exact fits _ _ nested

end MessageCatalog.Markup
