import Mathlib.Data.List.Basic
import MessageCatalog.Markup.Tree

/-!
# MessageCatalog.Proofs.Markup.Tree -- what of a page is in its tree

A tree is built with no loss and no addition: its tags are those of the start tags, and its leaves
other than text are those of the comments, declarations, sections and instructions. Where a node
ends up is left open here. A builder holds a part wherever the part waits: below an open element or
among the finished nodes.
-/

namespace MessageCatalog.Markup

open MessageCatalog.Text

/-! ## Parts -/

/-- What a tree is made of besides text. -/
inductive Part where
  | tag (tag : Tag)
  | leaf (node : Node)

mutual
/-- The parts of a node. -/
def Node.parts : Node → List Part
  | .element tag children => .tag tag :: partsOf children
  | .text _ => []
  | node => [.leaf node]

/-- The parts of some nodes. -/
def partsOf : List Node → List Part
  | [] => []
  | node :: rest => node.parts ++ partsOf rest
end

theorem mem_partsOf {part : Part} {nodes : List Node} :
    part ∈ partsOf nodes ↔ ∃ node ∈ nodes, part ∈ node.parts := by
  induction nodes with
  | nil => simp [partsOf]
  | cons node rest ih => rw [partsOf, List.mem_append, ih, List.exists_mem_cons_iff]

theorem mem_partsOf_reverse {part : Part} {nodes : List Node} :
    part ∈ partsOf nodes.reverse ↔ part ∈ partsOf nodes := by
  simp only [mem_partsOf, List.mem_reverse]

theorem mem_partsOf_append {part : Part} {nodes others : List Node} :
    part ∈ partsOf (nodes ++ others) ↔ part ∈ partsOf nodes ∨ part ∈ partsOf others := by
  simp only [mem_partsOf, List.mem_append, or_and_right, exists_or]

mutual
theorem Node.mem_tags (node : Node) {tag : Tag} :
    Part.tag tag ∈ node.parts ↔ ∃ element ∈ node.elements, element.tag = tag := by
  match node with
  | .element own children =>
      rw [Node.parts, Node.elements, List.mem_cons, List.exists_mem_cons_iff, mem_tags children,
        Part.tag.injEq]
      exact or_congr_left eq_comm
  | .text _ | .characterData _ | .comment _ | .declaration _ | .documentType _
  | .instruction _ => simp [Node.parts, Node.elements]

/-- The tags among the parts are those of the elements. -/
theorem mem_tags (nodes : List Node) {tag : Tag} :
    Part.tag tag ∈ partsOf nodes ↔ ∃ element ∈ allElements nodes, element.tag = tag := by
  match nodes with
  | [] => simp [partsOf, allElements]
  | node :: rest =>
      rw [partsOf, allElements, List.mem_append, Node.mem_tags node, mem_tags rest]
      simp only [List.mem_append, or_and_right, exists_or]
end

namespace Builder

/-! ## What a builder holds -/

/-- A part waits in a builder. -/
def Holds (b : Builder) (part : Part) : Prop :=
  (∃ inner ∈ b.opened, part = .tag inner.tag ∨ part ∈ partsOf inner.children) ∨
    part ∈ partsOf b.roots

variable {b : Builder} {part : Part}

/-! ## Adding and opening -/

theorem holds_add {node : Node} : (b.add node).Holds part ↔ b.Holds part ∨ part ∈ node.parts := by
  obtain ⟨opened, roots, pending, finished⟩ := b
  cases opened with
  | nil =>
      simp only [add, Holds, partsOf, List.mem_append]
      simp only [or_assoc, or_comm, or_left_comm]
  | cons inner outer =>
      simp only [add, Holds, partsOf, List.mem_append, List.exists_mem_cons_iff]
      simp only [or_assoc, or_comm, or_left_comm]

theorem holds_flush : b.flush.Holds part ↔ b.Holds part := by
  unfold flush
  split
  · exact Iff.rfl
  · show (b.add _).Holds part ↔ _
    rw [holds_add]
    simp [Node.parts]

theorem holds_addLeaf {make : List Char → Node} {text : List Char} :
    (b.addLeaf make text).Holds part ↔
      b.Holds part ∨ part ∈ (make (b.flush.shrink text)).parts := by
  show (b.flush.add _).Holds part ↔ _
  rw [holds_add, holds_flush]

theorem holds_openTag {tag : Tag} : (b.openTag tag).Holds part ↔ b.Holds part ∨ part = .tag tag := by
  have opened : (b.openTag tag).Holds part ↔ part = .tag tag ∨ b.flush.Holds part := by
    simp only [openTag, Holds, partsOf, List.exists_mem_cons_iff, List.not_mem_nil, or_false,
      or_assoc]
  rw [opened, holds_flush, or_comm]

/-! ## Closing -/

theorem holds_closeInnermost : b.closeInnermost.Holds part ↔ b.Holds part := by
  obtain ⟨opened, roots, pending, finished⟩ := b
  cases opened with
  | nil => exact Iff.rfl
  | cons inner outer =>
      have own : part ∈ inner.close.parts ↔
          part = .tag inner.tag ∨ part ∈ partsOf inner.children := by
        rw [OpenNode.close, Node.parts, List.mem_cons, mem_partsOf_reverse]
      unfold closeInnermost
      rw [holds_add, own]
      simp only [Holds, List.exists_mem_cons_iff]
      simp only [or_assoc, or_comm, or_left_comm]

theorem holds_closeMany {closed : List OpenNode} : (b.closeMany closed).Holds part ↔ b.Holds part := by
  induction closed generalizing b with
  | nil => exact Iff.rfl
  | cons _ rest ih => rw [closeMany, ih, holds_closeInnermost]

theorem holds_closeTag {name : String} : (b.closeTag name).Holds part ↔ b.Holds part := by
  unfold closeTag
  dsimp only
  split
  · rw [holds_closeInnermost, holds_closeMany, holds_flush]
  · exact holds_flush

theorem holds_endTag {name : String} : (b.endTag name).Holds part ↔ b.Holds part := by
  unfold endTag
  split
  · exact Iff.rfl
  · exact holds_closeTag

/-! ## One event -/

/-- The parts that an event adds, given the text that leaves keep. -/
def partsMade (b : Builder) (located : Located) : List Part :=
  match located.event with
  | .startTag name attributes _ =>
    [.tag ⟨name, attributesOf name attributes, located.offset⟩]
  | .endTag _ | .data _ | .named _ | .numeric _ => []
  | .comment text => [.leaf (.comment (b.flush.shrink text))]
  | .declaration text => [.leaf (.documentType (b.flush.shrink (text.drop 8)))]
  | .marked text =>
    match characterData? text with
    | some data => [.leaf (.characterData (b.flush.shrink data))]
    | none => [.leaf (.declaration (b.flush.shrink text))]
  | .instruction text => [.leaf (.instruction (b.flush.shrink text))]

/-- An event adds its parts and takes none away. -/
theorem holds_read {located : Located} :
    (b.read located).Holds part ↔ b.Holds part ∨ part ∈ b.partsMade located := by
  obtain ⟨offset, event⟩ := located
  cases event with
  | startTag name attributes selfClosing =>
      have opened : (b.openTag ⟨name, attributesOf name attributes, offset⟩).Holds part ↔
          b.Holds part ∨ part = .tag ⟨name, attributesOf name attributes, offset⟩ := holds_openTag
      simp only [read, partsMade, List.mem_singleton]
      rw [← opened]
      split
      · exact holds_endTag
      split
      · exact holds_closeTag
      · exact Iff.rfl
  | endTag name => simp [read, partsMade, holds_endTag]
  | data text | named name | numeric digits => simp [read, partsMade, addText, Holds]
  | comment text | declaration text | instruction text =>
      simp only [read, partsMade, holds_addLeaf, Node.parts]
  | marked text =>
      cases found : characterData? text <;>
        simp only [read, partsMade, found, holds_addLeaf, Node.parts]

/-! ## A whole page -/

theorem length_closeMany (closed : List OpenNode) :
    (b.closeMany closed).opened.length = b.opened.length - closed.length := by
  induction closed generalizing b with
  | nil => rfl
  | cons _ rest ih =>
      have one : b.closeInnermost.opened.length = b.opened.length - 1 := by
        obtain ⟨opened, roots, pending, finished⟩ := b
        rcases opened with _ | ⟨inner, _ | ⟨next, outer⟩⟩ <;> rfl
      rw [closeMany, ih, one, List.length_cons]
      omega

/-- When as many elements are closed as are open, none is open any more. -/
theorem opened_closeMany : (b.closeMany b.opened).opened = [] := by
  rw [← List.length_eq_zero_iff, length_closeMany, Nat.sub_self]

theorem mem_finish : part ∈ partsOf b.finish ↔ b.Holds part := by
  have same : (b.flush.closeMany b.flush.opened).Holds part ↔ b.flush.Holds part :=
    holds_closeMany
  rw [← holds_flush, ← same]
  unfold finish Holds
  -- no element is left open, so that every part is among the roots
  rw [opened_closeMany, mem_partsOf_reverse]
  simp

theorem holds_foldl_read {events : List Located} :
    (events.foldl read b).Holds part ↔ b.Holds part ∨
      ∃ before located after, events = before ++ located :: after ∧
        part ∈ (before.foldl read b).partsMade located := by
  induction events generalizing b with
  | nil => simp
  | cons first rest ih =>
      rw [List.foldl_cons, ih, holds_read, or_assoc]
      refine or_congr_right ⟨?_, ?_⟩
      · rintro (made | ⟨before, located, after, rfl, made⟩)
        · exact ⟨[], first, rest, rfl, made⟩
        · exact ⟨first :: before, located, after, rfl, made⟩
      · rintro ⟨before, located, after, same, made⟩
        cases before with
        | nil =>
            cases same
            exact Or.inl made
        | cons head before =>
            cases same
            exact Or.inr ⟨before, located, after, rfl, made⟩

end Builder

/-- The parts of a tree are those that its events make. -/
theorem mem_treeOf {events : List Located} {part : Part} :
    part ∈ partsOf (treeOf events) ↔ ∃ before located after, events = before ++ located :: after ∧
      part ∈ (before.foldl Builder.read Builder.empty).partsMade located := by
  rw [treeOf, Builder.mem_finish, Builder.holds_foldl_read]
  simp [Builder.Holds, Builder.empty, partsOf]

/-- The tags of a tree are those of the start tags. -/
theorem tag_mem_treeOf {events : List Located} {tag : Tag} :
    Part.tag tag ∈ partsOf (treeOf events) ↔ ∃ located ∈ events, ∃ name attributes selfClosing,
      located.event = .startTag name attributes selfClosing ∧
        tag = ⟨name, attributesOf name attributes, located.offset⟩ := by
  rw [mem_treeOf]
  constructor
  · rintro ⟨before, ⟨offset, event⟩, after, rfl, made⟩
    refine ⟨⟨offset, event⟩, by simp, ?_⟩
    cases event with
    | startTag name attributes selfClosing =>
        refine ⟨name, attributes, selfClosing, rfl, ?_⟩
        simpa [Builder.partsMade] using made
    | endTag _ | data _ | named _ | numeric _ | comment _ | declaration _ | instruction _ =>
        simp [Builder.partsMade] at made
    | marked text =>
        simp only [Builder.partsMade] at made
        split at made <;> simp at made
  · rintro ⟨located, there, name, attributes, selfClosing, event, rfl⟩
    obtain ⟨before, after, rfl⟩ := List.append_of_mem there
    exact ⟨before, located, after, rfl, by simp [Builder.partsMade, event]⟩

/-- An event that makes a leaf other than text. -/
def Event.MakesLeaf : Event → Prop
  | .comment _ | .declaration _ | .marked _ | .instruction _ => True
  | _ => False

/-- The leaves of a tree other than text are made by comments, declarations, sections and
instructions. -/
theorem leaf_mem_treeOf {events : List Located} {node : Node}
    (h : Part.leaf node ∈ partsOf (treeOf events)) : ∃ located ∈ events, located.event.MakesLeaf := by
  obtain ⟨before, ⟨offset, event⟩, after, rfl, made⟩ := mem_treeOf.mp h
  refine ⟨⟨offset, event⟩, by simp, ?_⟩
  cases event with
  | startTag _ _ _ | endTag _ | data _ | named _ | numeric _ => simp [Builder.partsMade] at made
  | comment _ | declaration _ | marked _ | instruction _ => trivial

/-- Character data of a tree is that of a section. -/
theorem characterData_mem_treeOf {events : List Located} :
    (∃ chars, Part.leaf (.characterData chars) ∈ partsOf (treeOf events)) ↔
      ∃ located ∈ events, ∃ text data, located.event = .marked text ∧
        characterData? text = some data := by
  simp only [mem_treeOf]
  constructor
  · rintro ⟨chars, before, ⟨offset, event⟩, after, rfl, made⟩
    refine ⟨⟨offset, event⟩, by simp, ?_⟩
    cases event with
    | startTag _ _ _ | endTag _ | data _ | named _ | numeric _ | comment _ | declaration _
    | instruction _ => simp [Builder.partsMade] at made
    | marked text =>
        simp only [Builder.partsMade] at made
        split at made
        · next data found => exact ⟨text, data, rfl, found⟩
        · simp at made
  · rintro ⟨located, there, text, data, event, found⟩
    obtain ⟨before, after, rfl⟩ := List.append_of_mem there
    exact ⟨_, before, located, after, rfl, by simp [Builder.partsMade, event, found]; rfl⟩

/-- Character data is kept as it is, or shrinks to one blank. -/
theorem characterData_treeOf {events : List Located} {chars : List Char}
    (h : Part.leaf (.characterData chars) ∈ partsOf (treeOf events)) :
    chars = ['\n'] ∨ chars = [' '] ∨ ∃ located ∈ events, ∃ text, located.event = .marked text ∧
      characterData? text = some chars := by
  obtain ⟨before, ⟨offset, event⟩, after, rfl, made⟩ := mem_treeOf.mp h
  cases event with
  | startTag _ _ _ | endTag _ | data _ | named _ | numeric _ | comment _ | declaration _
  | instruction _ => simp [Builder.partsMade] at made
  | marked text =>
      simp only [Builder.partsMade] at made
      split at made
      · next data found =>
          -- only blank data shrinks, and only outside elements that keep white space
          have kept : chars = ((before.foldl Builder.read Builder.empty).flush.shrink data) := by
            simpa using made
          unfold Builder.shrink at kept
          split at kept
          · exact Or.inr (Or.inr ⟨⟨offset, .marked text⟩, by simp, text, rfl, kept ▸ found⟩)
          split at kept
          · split at kept
            · exact Or.inl kept
            · exact Or.inr (Or.inl kept)
          · exact Or.inr (Or.inr ⟨⟨offset, .marked text⟩, by simp, text, rfl, kept ▸ found⟩)
      · simp at made

/-! ## Attributes -/

theorem mem_setAttribute {found : List (String × List Char)} {name : String} {value : List Char}
    {a : String × List Char} (there : a ∈ setAttribute found name value) :
    a ∈ found ∨ a = (name, value) := by
  induction found with
  | nil => exact Or.inr (List.mem_singleton.mp there)
  | cons first rest ih =>
      obtain ⟨n, v⟩ := first
      rw [setAttribute] at there
      split at there
      · next same =>
          rcases List.mem_cons.mp there with rfl | later
          · exact Or.inr (by rw [beq_iff_eq.mp same])
          · exact Or.inl (List.mem_cons_of_mem _ later)
      · rcases List.mem_cons.mp there with rfl | later
        · exact Or.inl List.mem_cons_self
        · exact (ih later).imp_left (List.mem_cons_of_mem _)

theorem exists_mem_setAttribute (found : List (String × List Char)) (name other : String)
    (value : List Char) : (∃ v, (other, v) ∈ setAttribute found name value) ↔
      (∃ v, (other, v) ∈ found) ∨ other = name := by
  induction found with
  | nil => simp [setAttribute]
  | cons first rest ih =>
      obtain ⟨n, v⟩ := first
      rw [setAttribute]
      split
      · next same =>
          rw [beq_iff_eq] at same
          subst same
          simp only [List.mem_cons, Prod.mk.injEq, exists_or]
          constructor
          · rintro (⟨_, rfl, _⟩ | later)
            · exact Or.inr rfl
            · exact Or.inl (Or.inr later)
          · rintro ((⟨_, rfl, _⟩ | later) | rfl)
            · exact Or.inl ⟨value, rfl, rfl⟩
            · exact Or.inr later
            · exact Or.inl ⟨value, rfl, rfl⟩
      · simp only [List.mem_cons, exists_or, ih, or_assoc]

/-- The attributes of a start tag set one after the other. -/
def setAll (found : List (String × List Char)) (attributes : List Attribute) :
    List (String × List Char) :=
  attributes.foldl (fun found a => setAttribute found a.name (a.value.getD [])) found

theorem mem_setAll {attributes : List Attribute} {found : List (String × List Char)}
    {p : String × List Char} (there : p ∈ setAll found attributes) :
    p ∈ found ∨ ∃ a ∈ attributes, p = (a.name, a.value.getD []) := by
  induction attributes generalizing found with
  | nil => exact Or.inl there
  | cons a rest ih =>
      rcases ih there with before | ⟨b, later, same⟩
      · rcases mem_setAttribute before with old | same
        · exact Or.inl old
        · exact Or.inr ⟨a, List.mem_cons_self, same⟩
      · exact Or.inr ⟨b, List.mem_cons_of_mem _ later, same⟩

theorem exists_mem_setAll {attributes : List Attribute} {found : List (String × List Char)}
    {name : String} : (∃ v, (name, v) ∈ setAll found attributes) ↔
      (∃ v, (name, v) ∈ found) ∨ ∃ a ∈ attributes, a.name = name := by
  induction attributes generalizing found with
  | nil => simp [setAll]
  | cons a rest ih =>
      have step : setAll found (a :: rest) =
          setAll (setAttribute found a.name (a.value.getD [])) rest := rfl
      rw [step, ih, exists_mem_setAttribute, or_assoc, List.exists_mem_cons_iff]
      exact or_congr_right (or_congr_left eq_comm)

/-- Every attribute of an element is one of its start tag. -/
theorem mem_attributesOf {element name : String} {attributes : List Attribute} {value : List Char}
    (there : (name, value) ∈ attributesOf element attributes) : ∃ a ∈ attributes,
      a.name = name ∧ value = attributeValue element name (a.value.getD []) := by
  obtain ⟨⟨n, v⟩, inside, same⟩ := List.mem_map.mp there
  cases same
  rcases mem_setAll inside with none | ⟨a, found, same⟩
  · cases none
  · cases same
    exact ⟨a, found, rfl, rfl⟩

/-- An element has an attribute of every name of its start tag. -/
theorem exists_mem_attributesOf (element name : String) (attributes : List Attribute) :
    (∃ value, (name, value) ∈ attributesOf element attributes) ↔
      ∃ a ∈ attributes, a.name = name := by
  have start : (∃ v, (name, v) ∈ setAll [] attributes) ↔ ∃ a ∈ attributes, a.name = name := by
    rw [exists_mem_setAll]
    simp
  rw [← start]
  constructor
  · rintro ⟨value, there⟩
    obtain ⟨⟨n, v⟩, inside, same⟩ := List.mem_map.mp there
    cases same
    exact ⟨v, inside⟩
  · rintro ⟨v, inside⟩
    exact ⟨_, List.mem_map.mpr ⟨(name, v), inside, rfl⟩⟩

end MessageCatalog.Markup
