import Mathlib.Data.List.Basic
import MessageCatalog.Markup.Tree

/-!
# MessageCatalog.Proofs.Markup.Stack -- the open elements of a builder

What an event does to the tags of the open elements, innermost first. A start tag comes on top, or
its element is closed at once. An end tag takes away the innermost tag of its name with all above
it, unless it answers for an element without content that its start tag closed. Everything else
leaves the tags alone.
-/

namespace MessageCatalog.Markup

/-- Whether an event is a tag. -/
def Event.isTag : Event → Bool
  | .startTag _ _ _ | .endTag _ => true
  | _ => false

namespace Builder

/-- The tags of the open elements, innermost first. -/
def tags (b : Builder) : List Tag := b.opened.map OpenNode.tag

/-- The end tags that are still to have no effect are those of elements without content. -/
def Sane (b : Builder) : Prop := ∀ name ∈ b.finished, name ∈ emptyElements

/-- Tags without the innermost one of a name and all above it, if there is one. -/
def closeNamed (name : String) (tags : List Tag) : List Tag :=
  if tags.any fun tag => tag.name == name then (tags.dropWhile fun tag => tag.name != name).tail
  else tags

variable {b : Builder}

theorem tags_add (node : Node) : (b.add node).tags = b.tags := by
  obtain ⟨opened, roots, pending, finished⟩ := b
  cases opened <;> rfl

theorem finished_add (node : Node) : (b.add node).finished = b.finished := by
  obtain ⟨opened, roots, pending, finished⟩ := b
  cases opened <;> rfl

theorem tags_flush : b.flush.tags = b.tags := by
  unfold flush
  split
  · rfl
  · exact tags_add _

theorem finished_flush : b.flush.finished = b.finished := by
  unfold flush
  split
  · rfl
  · exact finished_add _

theorem tags_addLeaf (make : List Char → Node) (text : List Char) :
    (b.addLeaf make text).tags = b.tags := (tags_add _).trans tags_flush

theorem finished_addLeaf (make : List Char → Node) (text : List Char) :
    (b.addLeaf make text).finished = b.finished := (finished_add _).trans finished_flush

theorem tags_openTag (tag : Tag) : (b.openTag tag).tags = tag :: b.tags :=
  congrArg (tag :: ·) tags_flush

theorem finished_openTag (tag : Tag) : (b.openTag tag).finished = b.finished := finished_flush

theorem tags_closeInnermost : b.closeInnermost.tags = b.tags.tail := by
  obtain ⟨opened, roots, pending, finished⟩ := b
  cases opened with
  | nil => rfl
  | cons inner outer => exact tags_add _

theorem finished_closeInnermost : b.closeInnermost.finished = b.finished := by
  obtain ⟨opened, roots, pending, finished⟩ := b
  cases opened with
  | nil => rfl
  | cons inner outer => exact finished_add _

theorem tags_closeMany (closed : List OpenNode) :
    (b.closeMany closed).tags = b.tags.drop closed.length := by
  induction closed generalizing b with
  | nil => rfl
  | cons _ rest ih => rw [closeMany, ih, tags_closeInnermost, List.drop_tail, List.length_cons]

theorem finished_closeMany (closed : List OpenNode) :
    (b.closeMany closed).finished = b.finished := by
  induction closed generalizing b with
  | nil => rfl
  | cons _ rest ih => rw [closeMany, ih, finished_closeInnermost]

theorem drop_length_takeWhile {α : Type} (p : α → Bool) (xs : List α) :
    xs.drop (xs.takeWhile p).length = xs.dropWhile p :=
  calc xs.drop (xs.takeWhile p).length
      = (xs.takeWhile p ++ xs.dropWhile p).drop (xs.takeWhile p).length := by
        rw [List.takeWhile_append_dropWhile]
    _ = xs.dropWhile p := List.drop_left

theorem tags_closeTag (name : String) : (b.closeTag name).tags = closeNamed name b.tags := by
  have same : b.flush.opened.any (fun e => e.tag.name == name) =
      b.tags.any fun tag => tag.name == name := by
    rw [← tags_flush, tags, List.any_map]
    rfl
  unfold closeTag closeNamed
  dsimp only
  rw [same]
  split
  · have long : (b.flush.opened.takeWhile fun e => e.tag.name != name).length =
        (b.tags.takeWhile fun tag => tag.name != name).length := by
      rw [← tags_flush, tags, List.takeWhile_map, List.length_map]
      rfl
    rw [tags_closeInnermost, tags_closeMany, long, tags_flush, drop_length_takeWhile]
  · exact tags_flush

/-- The name of the innermost element closes it, and nothing else. -/
theorem closeTag_eq {inner : OpenNode} {outer : List OpenNode} {name : String}
    (h : b.flush.opened = inner :: outer) (same : inner.tag.name = name) :
    b.closeTag name = b.flush.closeInnermost := by
  have own : (b.flush.opened.any fun e => e.tag.name == name) = true := by
    rw [h, List.any_cons, same, beq_self_eq_true, Bool.true_or]
  have none : b.flush.opened.takeWhile (fun e => e.tag.name != name) = [] := by
    rw [h, List.takeWhile_cons_of_neg (by simp [same])]
  rw [Builder.closeTag, if_pos own, none]
  rfl

theorem finished_closeTag (name : String) : (b.closeTag name).finished = b.finished := by
  unfold closeTag
  dsimp only
  split
  · rw [finished_closeInnermost, finished_closeMany, finished_flush]
  · exact finished_flush

theorem tags_endTag (name : String) :
    (b.endTag name).tags = if name ∈ b.finished then b.tags else closeNamed name b.tags := by
  unfold endTag
  simp only [List.contains_iff_mem]
  split
  · rfl
  · exact tags_closeTag name

/-- A tag is taken away with all above it, or there is none of the name. -/
theorem closeNamed_cases (name : String) (tags : List Tag) :
    (∃ above tag rest, tags = above ++ tag :: rest ∧ (∀ other ∈ above, other.name ≠ name) ∧
        tag.name = name ∧ closeNamed name tags = rest) ∨
      (∀ tag ∈ tags, tag.name ≠ name) ∧ closeNamed name tags = tags := by
  induction tags with
  | nil => exact Or.inr ⟨nofun, rfl⟩
  | cons tag rest ih =>
      by_cases own : tag.name = name
      · exact Or.inl ⟨[], tag, rest, rfl, nofun, own, by simp [closeNamed, own]⟩
      rcases ih with ⟨above, found, behind, rfl, others, same, closed⟩ | ⟨others, closed⟩
      · refine Or.inl ⟨tag :: above, found, behind, rfl, List.forall_mem_cons.mpr ⟨own, others⟩,
          same, ?_⟩
        have beyond : closeNamed name (tag :: (above ++ found :: behind)) =
            closeNamed name (above ++ found :: behind) := by
          simp [closeNamed, own, same]
        exact beyond.trans closed
      · refine Or.inr ⟨List.forall_mem_cons.mpr ⟨own, others⟩, ?_⟩
        have none : ¬(tag :: rest).any (fun tag => tag.name == name) = true := by
          simp only [List.any_eq_true, beq_iff_eq, not_exists, not_and]
          exact List.forall_mem_cons.mpr ⟨own, others⟩
        rw [closeNamed, if_neg none]

theorem closeNamed_cons (tag : Tag) (tags : List Tag) : closeNamed tag.name (tag :: tags) = tags := by
  simp [closeNamed]

/-! ## One event -/

variable {located : Located} {name : String} {attributes : List Attribute} {selfClosing : Bool}

/-- A start tag stays open unless it closes itself or its element has no content. Both together may
leave it open: then the end tag of an element before it is taken back instead. -/
theorem tags_read_startTag (event : located.event = .startTag name attributes selfClosing) :
    (b.read located).tags =
      if (if selfClosing then name ∈ b.finished else name ∉ emptyElements) then
        ⟨name, attributesOf name attributes, located.offset⟩ :: b.tags
      else b.tags := by
  unfold read
  rw [event]
  dsimp only
  cases selfClosing with
  | true =>
      rw [if_pos rfl, tags_endTag, finished_openTag, tags_openTag]
      simp only [if_true]
      split
      · rfl
      · exact closeNamed_cons _ _
  | false =>
      simp only [Bool.false_eq_true, if_false, List.contains_iff_mem]
      by_cases void : name ∈ emptyElements
      · rw [if_pos void, if_neg (not_not.mpr void)]
        show (closeTag _ name).tags = _
        rw [tags_closeTag, tags_openTag]
        exact closeNamed_cons _ _
      · rw [if_neg void, if_pos void]
        exact tags_openTag _

theorem tags_read_endTag (event : located.event = .endTag name) :
    (b.read located).tags = if name ∈ b.finished then b.tags else closeNamed name b.tags := by
  unfold read
  rw [event]
  exact tags_endTag name

theorem tags_read_other (other : located.event.isTag = false) : (b.read located).tags = b.tags := by
  obtain ⟨offset, event⟩ := located
  cases event with
  | startTag _ _ _ | endTag _ => cases other
  | data _ | named _ | numeric _ => rfl
  | comment _ | declaration _ | instruction _ => exact tags_addLeaf _ _
  | marked text =>
      unfold read
      dsimp only
      split <;> exact tags_addLeaf _ _

/-- Only elements without content have end tags that are to have no effect. -/
theorem sane_read (sane : b.Sane) (located : Located) : (b.read located).Sane := by
  have ended : ∀ {b' : Builder} (name : String), b'.Sane → (b'.endTag name).Sane := by
    intro b' name sane
    unfold endTag
    split
    · exact fun other there => sane other (List.mem_of_mem_erase there)
    · rw [Sane, finished_closeTag]
      exact sane
  obtain ⟨offset, event⟩ := located
  cases event with
  | startTag name attributes selfClosing =>
      have opened : (b.openTag ⟨name, attributesOf name attributes, offset⟩).Sane := by
        rw [Sane, finished_openTag]
        exact sane
      unfold read
      dsimp only
      split
      · exact ended name opened
      split
      · next void =>
          rw [Sane, finished_closeTag]
          intro other there
          rcases List.mem_append.mp there with before | last
          · exact opened other before
          · rw [List.mem_singleton.mp last]
            simpa using void
      · exact opened
  | endTag name => exact ended name sane
  | data _ | named _ | numeric _ => exact sane
  | comment _ | declaration _ | instruction _ =>
      unfold read
      rw [Sane, finished_addLeaf]
      exact sane
  | marked text =>
      unfold read
      dsimp only
      split <;> (rw [Sane, finished_addLeaf]; exact sane)

theorem sane_foldl_read (sane : b.Sane) (events : List Located) : (events.foldl read b).Sane := by
  induction events generalizing b with
  | nil => exact sane
  | cons first rest ih => exact ih (sane_read sane first)

/-- The tags behind an event are tags before it, or the tag of the event. -/
theorem mem_tags_read {tag : Tag} (there : tag ∈ (b.read located).tags) :
    tag ∈ b.tags ∨ tag.offset = located.offset := by
  have closed : ∀ {name : String}, tag ∈ closeNamed name b.tags → tag ∈ b.tags := by
    intro name inside
    unfold closeNamed at inside
    split at inside
    · exact List.dropWhile_subset _ (List.mem_of_mem_tail inside)
    · exact inside
  cases event : located.event with
  | startTag name attributes selfClosing =>
      rcases ite_eq_or_eq (if selfClosing then name ∈ b.finished else name ∉ emptyElements)
        (⟨name, attributesOf name attributes, located.offset⟩ :: b.tags) b.tags with same | same
      · rw [tags_read_startTag event, same] at there
        rcases List.mem_cons.mp there with rfl | before
        · exact Or.inr rfl
        · exact Or.inl before
      · rw [tags_read_startTag event, same] at there
        exact Or.inl there
  | endTag name =>
      rw [tags_read_endTag event] at there
      split at there
      · exact Or.inl there
      · exact Or.inl (closed there)
  | data _ | named _ | numeric _ | comment _ | declaration _ | marked _ | instruction _ =>
      rw [tags_read_other (by rw [event]; rfl)] at there
      exact Or.inl there

/-- The tags of a builder are those of events that it has read. -/
theorem mem_tags_foldl_read {events : List Located} {tag : Tag}
    (there : tag ∈ (events.foldl read b).tags) :
    tag ∈ b.tags ∨ ∃ located ∈ events, tag.offset = located.offset := by
  induction events generalizing b with
  | nil => exact Or.inl there
  | cons first rest ih =>
      rcases ih there with before | ⟨located, later, same⟩
      · rcases mem_tags_read before with own | same
        · exact Or.inl own
        · exact Or.inr ⟨first, List.mem_cons_self, same⟩
      · exact Or.inr ⟨located, List.mem_cons_of_mem _ later, same⟩

end Builder

end MessageCatalog.Markup
