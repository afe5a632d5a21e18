import MessageCatalog.Proofs.Markup.Sanitize
import MessageCatalog.Proofs.Markup.Stack
import MessageCatalog.Proofs.Markup.TagText
import MessageCatalog.Proofs.Markup.TextContent

/-!
# MessageCatalog.Proofs.Markup.KeptText -- sanitizing keeps the text

A tree has the text of its events in their order, whatever its elements are: only blank text shrinks.
What the sanitizer leaves has the text that stands outside dropped elements, and so have its chunks.
Set as a paragraph they are read inside it up to its own end tag, since the end tags among them
close elements that they open, or answer for elements without content. So the paragraph has the
text that was kept, but for white space.
-/

namespace MessageCatalog.Markup

open MessageCatalog.Text

/-! ## Text -/

/-- What is left of a text without its white space. -/
def inked (text : List Char) : List Char := text.filter fun c => !isMarkupSpace c

theorem inked_append (text more : List Char) : inked (text ++ more) = inked text ++ inked more :=
  List.filter_append ..

theorem inked_blank {text : List Char} (blank : text.all isMarkupSpace = true) : inked text = [] := by
  rw [inked, List.filter_eq_nil_iff]
  intro c there
  simp [List.all_eq_true.mp blank c there]

mutual
/-- The text and the character data of a node, in whatever elements they stand. -/
def Node.wholeText : Node → List Char
  | .text chars => chars
  | .characterData chars => chars
  | .element _ children => wholeTexts children
  | _ => []

/-- The text and the character data of some nodes. -/
def wholeTexts : List Node → List Char
  | [] => []
  | node :: rest => node.wholeText ++ wholeTexts rest
end

mutual
/-- The text and the character data of a node outside dropped elements. -/
def Node.keptText : Node → List Char
  | .text chars => chars
  | .characterData chars => chars
  | .element tag children => if tag.name ∈ droppedElements then [] else keptTexts children
  | .comment _ => []
  | .declaration _ => []
  | .documentType _ => []
  | .instruction _ => []

/-- The text and the character data of some nodes outside dropped elements. -/
def keptTexts : List Node → List Char
  | [] => []
  | node :: rest => node.keptText ++ keptTexts rest
end

theorem wholeTexts_append (nodes others : List Node) :
    wholeTexts (nodes ++ others) = wholeTexts nodes ++ wholeTexts others := by
  induction nodes with
  | nil => rfl
  | cons node rest ih => rw [List.cons_append, wholeTexts, wholeTexts, ih, List.append_assoc]

theorem wholeTexts_singleton (node : Node) : wholeTexts [node] = node.wholeText := by
  rw [wholeTexts, wholeTexts, List.append_nil]

/-! ## What survives -/

section Survives

variable {allowLink : List Char → Bool}

mutual
theorem Node.wholeText_sanitize (node : Node)
    (small : ∀ tag, .tag tag ∈ node.parts → nameOf tag.name.toList = tag.name) :
    wholeTexts (node.sanitize allowLink) = node.keptText := by
  match node with
  | .text _ | .characterData _ => exact wholeTexts_singleton _
  | .comment _ | .declaration _ | .documentType _ | .instruction _ => rfl
  | .element tag children =>
      have own : nameOf tag.name.toList = tag.name := small tag List.mem_cons_self
      have inside := wholeTexts_sanitizeNodes children fun inner there =>
        small inner (List.mem_cons_of_mem _ there)
      rw [Node.sanitize, Node.keptText, own]
      simp only [List.contains_iff_mem]
      split
      · rfl
      split
      · rw [wholeTexts_singleton, Node.wholeText, inside]
      · exact inside

/-- What survives of some nodes has their text outside dropped elements. -/
theorem wholeTexts_sanitizeNodes (nodes : List Node)
    (small : ∀ tag, .tag tag ∈ partsOf nodes → nameOf tag.name.toList = tag.name) :
    wholeTexts (sanitizeNodes allowLink nodes) = keptTexts nodes := by
  match nodes with
  | [] => rfl
  | node :: rest =>
      rw [sanitizeNodes, wholeTexts_append, keptTexts,
        Node.wholeText_sanitize node fun tag there => small tag (List.mem_append_left _ there),
        wholeTexts_sanitizeNodes rest fun tag there => small tag (List.mem_append_right _ there)]
end

end Survives

mutual
theorem Node.textContent_eq_wholeText (node : Node)
    (shown : ∀ tag, .tag tag ∈ node.parts → tag.name ∉ hiddenTextElements) :
    node.textContent = node.wholeText := by
  match node with
  | .text _ | .characterData _ | .comment _ | .declaration _ | .documentType _
  | .instruction _ => rfl
  | .element tag children =>
      have own : ¬hiddenTextElements.contains tag.name = true := by
        simpa using shown tag List.mem_cons_self
      rw [Node.textContent, if_neg own, Node.wholeText]
      exact textContents_eq_wholeTexts children fun inner there =>
        shown inner (List.mem_cons_of_mem _ there)

/-- Where no element hides its text, all text is shown. -/
theorem textContents_eq_wholeTexts (nodes : List Node)
    (shown : ∀ tag, .tag tag ∈ partsOf nodes → tag.name ∉ hiddenTextElements) :
    textContents nodes = wholeTexts nodes := by
  match nodes with
  | [] => rfl
  | node :: rest =>
      rw [textContents, wholeTexts,
        Node.textContent_eq_wholeText node fun tag there => shown tag (List.mem_append_left _ there),
        textContents_eq_wholeTexts rest fun tag there => shown tag (List.mem_append_right _ there)]
end

/-! ## The text of events -/

/-- The text that an event adds to a tree. -/
def Event.textRead : Event → List Char
  | .data text => text
  | .named name => namedText name
  | .numeric digits => numericText digits
  | .marked text => (characterData? text).getD []
  | _ => []

namespace Builder

variable {b : Builder}

/-- The text that has been read: of the finished nodes, of the open elements from the outermost to
the innermost, and what waits to become a node. -/
def textSoFar (b : Builder) : List Char :=
  wholeTexts b.roots.reverse ++
    b.opened.reverse.flatMap (fun e => wholeTexts e.children.reverse) ++ b.pending

theorem inked_shrink (text : List Char) : inked (b.shrink text) = inked text := by
  unfold shrink
  split
  · rfl
  split
  · next blank =>
      rw [inked_blank blank]
      split <;> rfl
  · rfl

theorem pending_flush : b.flush.pending = [] := by
  unfold flush
  split
  · next none => exact List.isEmpty_iff.mp none
  · rfl

theorem pending_add (node : Node) : (b.add node).pending = b.pending := by
  unfold add
  split <;> rfl

theorem textSoFar_add (settled : b.pending = []) (node : Node) :
    (b.add node).textSoFar = b.textSoFar ++ node.wholeText := by
  obtain ⟨opened, roots, pending, finished⟩ := b
  cases settled
  cases opened with
  | nil => simp [add, textSoFar, wholeTexts_append, wholeTexts_singleton]
  | cons inner outer => simp [add, textSoFar, wholeTexts_append, wholeTexts_singleton]

theorem textSoFar_flush : inked b.flush.textSoFar = inked b.textSoFar := by
  obtain ⟨opened, roots, pending, finished⟩ := b
  unfold flush
  split
  · rfl
  · have added := textSoFar_add (b := ⟨opened, roots, [], finished⟩) rfl
      (.text (shrink ⟨opened, roots, pending, finished⟩ pending))
    have same : ({ add ⟨opened, roots, pending, finished⟩
        (.text (shrink ⟨opened, roots, pending, finished⟩ pending)) with pending := [] } : Builder) =
          add ⟨opened, roots, [], finished⟩
            (.text (shrink ⟨opened, roots, pending, finished⟩ pending)) := by
      cases opened <;> rfl
    dsimp only at same ⊢
    rw [same, added, inked_append, Node.wholeText, inked_shrink, ← inked_append]
    simp [textSoFar]

theorem textSoFar_addLeaf (make : List Char → Node) (text : List Char) :
    inked (b.addLeaf make text).textSoFar =
      inked b.textSoFar ++ inked (make (b.flush.shrink text)).wholeText := by
  show inked (b.flush.add (make (b.flush.shrink text))).textSoFar = _
  rw [textSoFar_add pending_flush, inked_append, textSoFar_flush]

theorem textSoFar_openTag (tag : Tag) : inked (b.openTag tag).textSoFar = inked b.textSoFar := by
  rw [← textSoFar_flush (b := b)]
  simp [openTag, textSoFar, wholeTexts]

theorem textSoFar_closeInnermost (settled : b.pending = []) :
    b.closeInnermost.textSoFar = b.textSoFar ∧ b.closeInnermost.pending = [] := by
  obtain ⟨opened, roots, pending, finished⟩ := b
  cases settled
  cases opened with
  | nil => exact ⟨rfl, rfl⟩
  | cons inner outer =>
      refine ⟨?_, pending_add _⟩
      unfold closeInnermost
      rw [textSoFar_add rfl, OpenNode.close, Node.wholeText]
      simp [textSoFar]

theorem textSoFar_closeMany (settled : b.pending = []) (closed : List OpenNode) :
    (b.closeMany closed).textSoFar = b.textSoFar ∧ (b.closeMany closed).pending = [] := by
  induction closed generalizing b with
  | nil => exact ⟨rfl, settled⟩
  | cons _ rest ih =>
      obtain ⟨same, still⟩ := textSoFar_closeInnermost settled
      rw [closeMany, ← same]
      exact ih still

theorem textSoFar_closeTag (name : String) : inked (b.closeTag name).textSoFar = inked b.textSoFar := by
  unfold closeTag
  dsimp only
  split
  · obtain ⟨same, still⟩ := textSoFar_closeMany (pending_flush (b := b))
      (b.flush.opened.takeWhile fun e => e.tag.name != name)
    rw [(textSoFar_closeInnermost still).1, same, textSoFar_flush]
  · exact textSoFar_flush

theorem textSoFar_endTag (name : String) : inked (b.endTag name).textSoFar = inked b.textSoFar := by
  unfold endTag
  split
  · rfl
  · exact textSoFar_closeTag name

/-- An event adds its text behind what has been read. -/
theorem textSoFar_read (located : Located) :
    inked (b.read located).textSoFar = inked b.textSoFar ++ inked located.event.textRead := by
  obtain ⟨offset, event⟩ := located
  cases event with
  | startTag name attributes selfClosing =>
      have opened := textSoFar_openTag (b := b) ⟨name, attributesOf name attributes, offset⟩
      have none : inked (Event.startTag name attributes selfClosing).textRead = [] := rfl
      rw [none, List.append_nil, ← opened]
      unfold read
      dsimp only
      split
      · exact textSoFar_endTag name
      split
      · exact textSoFar_closeTag name
      · rfl
  | endTag name => exact (textSoFar_endTag name).trans (List.append_nil _).symm
  | data text | named name | numeric digits =>
      simp [read, Event.textRead, addText, textSoFar, inked_append]
  | comment text | declaration text | instruction text =>
      exact textSoFar_addLeaf _ _
  | marked text =>
      rw [Event.textRead]
      cases found : characterData? text with
      | none =>
          simp only [read, found]
          exact textSoFar_addLeaf _ _
      | some data =>
          simp only [read, found]
          rw [textSoFar_addLeaf, Node.wholeText, inked_shrink]
          rfl

theorem textSoFar_foldl_read (events : List Located) :
    inked (events.foldl read b).textSoFar =
      inked b.textSoFar ++ inked (events.flatMap fun located => located.event.textRead) := by
  induction events generalizing b with
  | nil => exact (List.append_nil _).symm
  | cons first rest ih =>
      rw [List.foldl_cons, ih, textSoFar_read, List.flatMap_cons, inked_append, List.append_assoc]

theorem wholeTexts_finish : inked (wholeTexts b.finish) = inked b.textSoFar := by
  obtain ⟨same, still⟩ := textSoFar_closeMany (pending_flush (b := b)) b.flush.opened
  rw [← textSoFar_flush, ← same, textSoFar, opened_closeMany, still]
  simp [finish]

end Builder

/-- A tree has the text of its events, in their order. -/
theorem wholeTexts_treeOf (events : List Located) :
    inked (wholeTexts (treeOf events)) =
      inked (events.flatMap fun located => located.event.textRead) := by
  rw [treeOf, Builder.wholeTexts_finish, Builder.textSoFar_foldl_read]
  rfl

/-! ## The text of chunks -/

theorem textRead_eventsFrom (chunks : List Chunk) (offset : Nat) :
    (eventsFrom offset chunks).flatMap (fun located => located.event.textRead) =
      chunks.flatMap fun chunk => chunk.event.textRead := by
  induction chunks generalizing offset with
  | nil => rfl
  | cons chunk rest ih => rw [eventsFrom, List.flatMap_cons, List.flatMap_cons, ih]

theorem textRead_textChunk (c : Char) : (textChunk c).event.textRead = [c] := by
  rcases textChunk_cases c with ⟨w, rfl, chunk, _⟩ | ⟨_, chunk, _⟩
  · rw [chunk]
    show namedText w.name = [w.char]
    rw [namedText, namedReferenceOf?, namedReference?_name]
    rfl
  · rw [chunk]
    rfl

theorem textRead_data (chars : List Char) : (Chunk.data chars).event.textRead = chars := by
  have section' : characterData? (sectionName ++ chars) = some chars := by
    rw [characterData?, if_pos (by rfl)]
    rfl
  show (characterData? (sectionName ++ chars)).getD [] = chars
  rw [section']
  rfl

mutual
theorem Node.textRead_chunks (node : Node) :
    node.chunks.flatMap (fun chunk => chunk.event.textRead) = node.wholeText := by
  match node with
  | .text chars =>
      rw [Node.chunks, List.flatMap_map, Node.wholeText]
      simp [textRead_textChunk]
  | .characterData chars =>
      rw [Node.chunks, List.flatMap_singleton, Node.wholeText]
      exact textRead_data chars
  | .element tag children =>
      have closing : (if children.isEmpty && emptyElements.contains tag.name then []
          else [Chunk.closing tag.name]).flatMap (fun chunk => chunk.event.textRead) = [] := by
        split <;> rfl
      rw [Node.chunks, List.flatMap_append, List.flatMap_cons, closing, List.append_nil,
        textRead_chunksOf children, Node.wholeText]
      rfl
  | .comment _ | .declaration _ | .documentType _ | .instruction _ => rfl

/-- The chunks of some nodes have their text. -/
theorem textRead_chunksOf (nodes : List Node) :
    (chunksOf nodes).flatMap (fun chunk => chunk.event.textRead) = wholeTexts nodes := by
  match nodes with
  | [] => rfl
  | node :: rest =>
      rw [chunksOf, List.flatMap_append, Node.textRead_chunks node, textRead_chunksOf rest, wholeTexts]
end

/-! ## Inside a paragraph -/

namespace Builder

/-- What is read inside an open element leaves it and those around it open, and takes back none of
the end tags that are still to have no effect. -/
structure Within (b after : Builder) : Prop where
  roots : after.roots = b.roots
  tags : after.tags = b.tags
  finished : ∀ name, b.finished.count name ≤ after.finished.count name
  sane : b.Sane → after.Sane

variable {b after later : Builder}

theorem Within.refl (b : Builder) : b.Within b := ⟨rfl, rfl, fun _ => Nat.le_refl _, id⟩

theorem Within.trans (h : b.Within after) (h' : after.Within later) : b.Within later where
  roots := h'.roots.trans h.roots
  tags := h'.tags.trans h.tags
  finished name := (h.finished name).trans (h'.finished name)
  sane := h'.sane ∘ h.sane

/-- Where an element is open, it stays open. -/
theorem Within.inside (h : b.Within after) (inside : b.opened ≠ []) : after.opened ≠ [] := by
  intro none
  have tags : after.tags = b.tags := h.tags
  rw [Builder.tags, none] at tags
  exact inside (List.map_eq_nil_iff.mp tags.symm)

theorem within_add (inside : b.opened ≠ []) (node : Node) : b.Within (b.add node) := by
  obtain ⟨opened, roots, pending, finished⟩ := b
  cases opened with
  | nil => exact absurd rfl inside
  | cons inner outer => exact ⟨rfl, rfl, fun _ => Nat.le_refl _, id⟩

theorem within_flush (inside : b.opened ≠ []) : b.Within b.flush := by
  unfold flush
  split
  · exact Within.refl b
  · obtain ⟨roots, tags, finished, sane⟩ := within_add inside (.text (b.shrink b.pending))
    exact ⟨roots, tags, finished, sane⟩

theorem within_addLeaf (inside : b.opened ≠ []) (make : List Char → Node) (text : List Char) :
    b.Within (b.addLeaf make text) :=
  (within_flush inside).trans (within_add ((within_flush inside).inside inside) _)

/-- The end tag of the innermost open element closes just it. -/
theorem closeTag_innermost {tag : Tag} {outer : List Tag}
    (own : b.tags = tag :: outer) :
    b.closeTag tag.name = b.flush.closeInnermost := by
  have tags : b.flush.tags = tag :: outer := tags_flush.trans own
  obtain ⟨inner, others, opened, same, -⟩ := List.map_eq_cons_iff.mp tags
  exact closeTag_eq opened (congrArg Tag.name same)

/-- Closing the innermost open element inside another one is as if only a node were added. -/
theorem within_closeInnermost {tag : Tag} (inside : b.opened ≠ [])
    (opened : (b.openTag tag).Within after) : b.Within after.flush.closeInnermost := by
  have flushed := opened.trans (within_flush (opened.inside (List.cons_ne_nil _ _)))
  have tags : after.flush.tags = tag :: b.flush.tags := flushed.tags
  obtain ⟨inner, outer, split, rfl, around⟩ := List.map_eq_cons_iff.mp tags
  have front : b.Within { after.flush with opened := outer } := by
    refine ⟨flushed.roots.trans (within_flush inside).roots, ?_, ?_, ?_⟩
    · exact around.trans (within_flush inside).tags
    · intro name
      exact ((within_flush inside).finished name).trans (flushed.finished name)
    · exact fun sane => flushed.sane ((within_flush inside).sane sane)
  have closed : after.flush.closeInnermost = { after.flush with opened := outer }.add inner.close := by
    rw [closeInnermost, split]
  rw [closed]
  exact front.trans (within_add (front.inside inside) _)

/-- The start tag of an element without content closes it, and one end tag more is to have no
effect. -/
theorem within_read_empty (inside : b.opened ≠ []) {name : String} (void : name ∈ emptyElements)
    (attributes : List Attribute) (offset : Nat) :
    b.Within (b.read ⟨offset, .startTag name attributes false⟩) ∧
      ∀ other, b.finished.count other + [name].count other ≤
        (b.read ⟨offset, .startTag name attributes false⟩).finished.count other := by
  have closed := within_closeInnermost inside
    (Within.refl (b.openTag ⟨name, attributesOf name attributes, offset⟩))
  have own := closeTag_innermost (b := b.openTag ⟨name, attributesOf name attributes, offset⟩) rfl
  have isVoid : emptyElements.contains name = true := by simpa using void
  unfold read
  dsimp only at own ⊢
  rw [if_neg Bool.false_ne_true, if_pos isVoid, own]
  have counts : ∀ other, b.finished.count other + [name].count other ≤
      ((b.openTag ⟨name, attributesOf name attributes, offset⟩).flush.closeInnermost.finished ++
        [name]).count other := by
    intro other
    rw [List.count_append]
    exact Nat.add_le_add_right (closed.finished other) _
  refine ⟨⟨closed.roots, closed.tags, ?_, ?_⟩, counts⟩
  · exact fun other => (Nat.le_add_right _ _).trans (counts other)
  · intro sane other there
    rcases List.mem_append.mp there with before | last
    · exact closed.sane sane other before
    · rwa [List.mem_singleton.mp last]

/-- An end tag that is to have no effect has none. -/
theorem within_endTag_empty {name : String} (h : b.Within after)
    (more : ∀ other, b.finished.count other + [name].count other ≤ after.finished.count other) :
    b.Within (after.endTag name) := by
  have there : name ∈ after.finished := by
    have own := more name
    rw [List.count_singleton_self] at own
    exact List.one_le_count_iff.mp (by omega)
  have known : after.finished.contains name = true := by simpa using there
  rw [endTag, if_pos known]
  refine ⟨h.roots, h.tags, fun other => ?_, fun sane other inside => ?_⟩
  · have counts := more other
    rw [List.count_erase]
    rw [List.count_singleton] at counts
    exact Nat.le_sub_of_add_le counts
  · exact h.sane sane other (List.mem_of_mem_erase inside)

/-- The end tag of an element that may have content closes it. -/
theorem within_endTag (tag : Tag) (inside : b.opened ≠ []) (sane : b.Sane)
    (content : tag.name ∉ emptyElements) (opened : (b.openTag tag).Within after) :
    b.Within (after.endTag tag.name) := by
  have saneOpened : (b.openTag tag).Sane := (within_flush inside).sane sane
  have absent : ¬after.finished.contains tag.name = true := by
    simpa using fun there => content (opened.sane saneOpened _ there)
  rw [endTag, if_neg absent, closeTag_innermost opened.tags]
  exact within_closeInnermost inside opened

mutual
theorem within_chunks (node : Node) (offset : Nat) {b : Builder} (inside : b.opened ≠ [])
    (sane : b.Sane) : b.Within ((eventsFrom offset node.chunks).foldl read b) := by
  match node with
  | .text chars =>
      rw [Node.chunks, foldl_read_textChunks]
      exact ⟨rfl, rfl, fun _ => Nat.le_refl _, id⟩
  | .characterData chars =>
      show b.Within (b.read ⟨offset, .marked (sectionName ++ chars)⟩)
      unfold read
      dsimp only
      split
      · exact within_addLeaf inside _ _
      · exact within_addLeaf inside _ _
  | .element tag children =>
      obtain ⟨attributes, event⟩ :
          ∃ attributes, tag.opening.event = .startTag tag.name attributes false := ⟨_, rfl⟩
      rw [Node.chunks, eventsFrom_append, List.foldl_append, eventsFrom, List.foldl_cons, event]
      by_cases void : tag.name ∈ emptyElements
      · -- what stands inside the tags is read behind the element
        obtain ⟨start, more⟩ := within_read_empty inside void attributes offset
        have within := within_chunksOf children (offset + tag.opening.text.length)
          (start.inside inside) (start.sane sane)
        split
        · exact start.trans within
        · exact within_endTag_empty (start.trans within) fun other =>
            (more other).trans (within.finished other)
      · have opened : b.read ⟨offset, .startTag tag.name attributes false⟩ =
            b.openTag ⟨tag.name, attributesOf tag.name attributes, offset⟩ := by
          simp [read, void]
        have saneOpened : (b.openTag ⟨tag.name, attributesOf tag.name attributes, offset⟩).Sane :=
          (within_flush inside).sane sane
        rw [opened, if_neg (by simp [void])]
        exact within_endTag ⟨tag.name, attributesOf tag.name attributes, offset⟩ inside sane void
          (within_chunksOf children _ (List.cons_ne_nil _ _) saneOpened)
  | .comment _ | .declaration _ | .documentType _ | .instruction _ => exact Within.refl b

/-- The chunks of some nodes are read inside what is open. -/
theorem within_chunksOf (nodes : List Node) (offset : Nat) {b : Builder} (inside : b.opened ≠ [])
    (sane : b.Sane) : b.Within ((eventsFrom offset (chunksOf nodes)).foldl read b) := by
  match nodes with
  | [] => exact Within.refl b
  | node :: rest =>
      have first := within_chunks node offset inside sane
      rw [chunksOf, eventsFrom_append, List.foldl_append]
      exact first.trans (within_chunksOf rest _ (first.inside inside) (first.sane sane))
end

end Builder

/-- Set as a paragraph, the chunks of some nodes are read inside it. -/
theorem treeOf_paragraph_chunksOf (nodes : List Node) :
    ∃ children, treeOf (eventsFrom 0 (paragraph (chunksOf nodes))) =
      [.element ⟨"p", [], 0⟩ children] := by
  have within := Builder.within_chunksOf nodes (0 + (Chunk.opening "p" []).text.length)
    (b := inParagraph) (List.cons_ne_nil _ _) nofun
  rw [treeOf, paragraph, eventsFrom, List.foldl_cons, eventsFrom_append, List.foldl_append]
  have start : Builder.empty.read ⟨0, (Chunk.opening "p" []).event⟩ = inParagraph := rfl
  rw [start]
  generalize (eventsFrom (0 + (Chunk.opening "p" []).text.length) (chunksOf nodes)).foldl
    Builder.read inParagraph = inner at within ⊢
  show ∃ children, (inner.endTag "p").finish = _
  have absent : ¬inner.finished.contains "p" = true := by
    simpa using fun there => absurd (within.sane nofun _ there) (by decide)
  have closed : inner.closeTag "p" = inner.flush.closeInnermost :=
    Builder.closeTag_innermost within.tags
  have flushed := within.trans (Builder.within_flush (within.inside (List.cons_ne_nil _ _)))
  obtain ⟨own, none, opened, tag, nothing⟩ := List.map_eq_cons_iff.mp flushed.tags
  cases List.map_eq_nil_iff.mp nothing
  refine ⟨own.children.reverse, ?_⟩
  have settled : inner.flush.pending = [] := Builder.pending_flush
  have roots : inner.flush.roots = [] := flushed.roots
  rw [Builder.endTag, if_neg absent, closed, Builder.closeInnermost, opened]
  generalize inner.flush = last at opened settled roots ⊢
  obtain ⟨_, _, _, finished⟩ := last
  cases settled
  cases roots
  obtain ⟨_, children⟩ := own
  cases tag
  rfl

/-- No element of a paragraph of allowed tags hides its text. -/
theorem paragraph_shows {allowLink : List Char → Bool} {nodes : List Node}
    (allowed : ∀ own, .tag own ∈ partsOf nodes → (Part.tag own).Allowed allowLink)
    {start offset : Nat} {name : String} {attributes : List Attribute} {selfClosing : Bool}
    (there : ⟨offset, .startTag name attributes selfClosing⟩ ∈
      eventsFrom start (paragraph (chunksOf nodes))) : name ∉ hiddenTextElements := by
  have all : ∀ name ∈ allowedElements, name ∉ hiddenTextElements := by decide
  obtain ⟨chunk, among, event⟩ := mem_eventsFrom there
  rcases List.mem_cons.mp among with rfl | among
  · cases event
    decide
  rcases List.mem_append.mp among with inside | last
  · cases chunk with
    | plain _ | reference _ | closing _ | data _ => cases event
    | opening own written =>
        cases event
        obtain ⟨tag, found, same⟩ := opening_mem_chunksOf inside
        cases same
        exact all _ (allowed tag found).1
  · rw [List.mem_singleton.mp last] at event
    cases event

/-- Sanitizing keeps the text outside dropped elements, but for white space. -/
theorem textContent_sanitizeMarkup {allowLink : List Char → Bool} {markup out : List Char}
    (h : sanitizeMarkup allowLink markup = .ok out) :
    ∃ nodes text, parse markup = .ok nodes ∧ textContent out = .ok text ∧
      inked text = inked (keptTexts nodes) := by
  obtain ⟨nodes, read, rfl, proper, allowed⟩ := sanitizeMarkup_eq_ok h
  have small : ∀ tag, .tag tag ∈ partsOf nodes → nameOf tag.name.toList = tag.name := by
    intro tag there
    obtain ⟨⟨written, isRead⟩, -⟩ := parse_names read there
    rw [isRead, nameOf_nameOf]
  obtain ⟨children, tree⟩ := treeOf_paragraph_chunksOf (sanitizeNodes allowLink nodes)
  have text : textContent (render (sanitizeNodes allowLink nodes)) = .ok (textContents children) := by
    rw [textContent, render, renderNodes_eq _ proper, parse_paragraph (chunksOf_proper proper),
      treeOf, foldl_read_joined, ← treeOf, tree]
    rfl
  have shown : ∀ tag, .tag tag ∈ partsOf children → tag.name ∉ hiddenTextElements := by
    intro tag there
    have inTree : Part.tag tag ∈ partsOf (treeOf (eventsFrom 0
        (paragraph (chunksOf (sanitizeNodes allowLink nodes))))) := by
      rw [tree, partsOf, Node.parts]
      exact List.mem_append_left _ (List.mem_cons_of_mem _ there)
    obtain ⟨⟨offset, _⟩, found, name, attributes, selfClosing, rfl, rfl⟩ :=
      tag_mem_treeOf.mp inTree
    exact paragraph_shows allowed found
  refine ⟨nodes, textContents children, read, text, ?_⟩
  have whole : wholeTexts [Node.element ⟨"p", [], 0⟩ children] = wholeTexts children := by
    rw [wholeTexts_singleton, Node.wholeText]
  calc inked (textContents children)
      = inked (wholeTexts (treeOf (eventsFrom 0
          (paragraph (chunksOf (sanitizeNodes allowLink nodes)))))) := by
        rw [textContents_eq_wholeTexts children shown, tree, whole]
    _ = inked (wholeTexts (sanitizeNodes allowLink nodes)) := by
        rw [wholeTexts_treeOf, textRead_eventsFrom, paragraph, List.flatMap_cons,
          List.flatMap_append, textRead_chunksOf]
        simp [Chunk.event, Event.textRead]
    _ = inked (keptTexts nodes) := by rw [wholeTexts_sanitizeNodes nodes small]

/-- Markup with elements in one another that are kept, dropped and unwrapped, an element without
content that is left open, character data, and brackets and an ampersand that are text. -/
def nestedMarkup : List Char :=
  "a & <rt>b<b>c</rt><script>d</script><!--e-->1<2<br>f<br/>g</br><![CDATA[<h]]></p>i".toList

/-- What is left of nested markup has all its text but that of the script and the comment. -/
theorem textContent_nestedMarkup :
    sanitizeMarkup (fun _ => false) nestedMarkup =
        .ok "a &amp; b<b>c</b>1&lt;2<br>f<br>g</br><![CDATA[<h]]>i".toList ∧
      ∃ text, textContent "a &amp; b<b>c</b>1&lt;2<br>f<br>g</br><![CDATA[<h]]>i".toList = .ok text ∧
        inked text = "a&bc1<2fg<hi".toList := by
  have sanitized : sanitizeMarkup (fun _ => false) nestedMarkup =
      .ok "a &amp; b<b>c</b>1&lt;2<br>f<br>g</br><![CDATA[<h]]>i".toList := by
    decide +kernel
  have kept : (parse nestedMarkup).map (fun nodes => inked (keptTexts nodes)) =
      .ok "a&bc1<2fg<hi".toList := by
    decide +kernel
  obtain ⟨nodes, text, read, has, same⟩ := textContent_sanitizeMarkup sanitized
  rw [read] at kept
  exact ⟨sanitized, text, has, same.trans (Except.ok.inj kept)⟩

end MessageCatalog.Markup
