import MessageCatalog.Proofs.Markup.Event
import MessageCatalog.Proofs.Markup.Rendered

/-!
# MessageCatalog.Proofs.Markup.Sanitize -- what the sanitizer lets through

What the sanitizer writes is read again as text and allowed elements with allowed attributes, and
every opening bracket in it starts one of their tags. There is one exception. A section of character
data is kept and written without escapes, unless a dropped element holds it, so the result is clean
if and only if there is no such section.
-/

namespace MessageCatalog.Markup

open MessageCatalog.Text

variable {allowLink : List Char → Bool} {nodes : List Node}

/-! ## Clean markup -/

/-- A tag of an allowed element, with allowed attributes and allowed links; any other part but text
is not allowed. -/
def Part.Allowed (allowLink : List Char → Bool) : Part → Prop
  | .tag own => own.name ∈ allowedElements ∧ ∀ a ∈ own.attributes,
      a.1 ∈ allowedAttributes ∧ (a.1 ∈ linkAttributes → allowLink a.2 = true)
  | .leaf _ => False

/-- A start tag or an end tag of an allowed element, with allowed attributes and allowed links. -/
def Event.Allowed (allowLink : List Char → Bool) : Event → Prop
  | .startTag name attributes _ => name ∈ allowedElements ∧ ∀ a ∈ attributes,
      a.name ∈ allowedAttributes ∧ (a.name ∈ linkAttributes → allowLink (a.value.getD []) = true)
  | .endTag name => name ∈ allowedElements
  | _ => False

/-- Markup that is read as text and allowed elements, with no bracket that is not theirs. -/
structure CleanMarkup (allowLink : List Char → Bool) (markup : List Char) : Prop where
  tree : ∃ nodes, parse markup = .ok nodes ∧ ∀ part ∈ partsOf nodes, part.Allowed allowLink
  brackets : ∀ i, markup[i]? = some '<' →
    ∃ event, ⟨i, event⟩ ∈ (tokenize markup).events ∧ event.Allowed allowLink

mutual
/-- Whether a node holds character data outside every dropped element. -/
def Node.showsData : Node → Bool
  | .characterData _ => true
  | .element tag children =>
    !droppedElements.contains (nameOf tag.name.toList) && nodesShowData children
  | _ => false

/-- Whether some nodes hold character data outside every dropped element. -/
def nodesShowData : List Node → Bool
  | [] => false
  | node :: rest => node.showsData || nodesShowData rest
end

/-! ## What survives -/

/-- A part of what survives of some nodes: a cleaned tag of an allowed element, or character
data. -/
def Part.Survives (allowLink : List Char → Bool) (nodes : List Node) (part : Part) : Prop :=
  (∃ own, part = .tag (own.clean allowLink) ∧ .tag own ∈ partsOf nodes ∧
    nameOf own.name.toList ∈ allowedElements) ∨
  ∃ chars, part = .leaf (.characterData chars) ∧ part ∈ partsOf nodes

theorem Part.Survives.mono {others : List Node} {part : Part}
    (all : ∀ p ∈ partsOf nodes, p ∈ partsOf others) (h : part.Survives allowLink nodes) :
    part.Survives allowLink others := by
  rcases h with ⟨own, same, there, allowed⟩ | ⟨chars, same, there⟩
  · exact Or.inl ⟨own, same, all _ there, allowed⟩
  · exact Or.inr ⟨chars, same, all _ there⟩

mutual
theorem Node.sanitize_survives (node : Node) :
    ∀ part ∈ partsOf (node.sanitize allowLink), part.Survives allowLink [node] := by
  intro part there
  match node with
  | .text chars => cases there
  | .characterData chars =>
      obtain rfl := List.mem_singleton.mp there
      exact Or.inr ⟨chars, rfl, List.mem_cons_self⟩
  | .comment _ | .declaration _ | .documentType _ | .instruction _ => cases there
  | .element tag children =>
      have inside : ∀ p ∈ partsOf children, p ∈ partsOf [Node.element tag children] :=
        fun p found => List.mem_append_left _ (List.mem_cons_of_mem _ found)
      rw [Node.sanitize] at there
      split at there
      · cases there
      split at there
      · next allowed =>
          rw [partsOf, Node.parts, partsOf, List.append_nil] at there
          rcases List.mem_cons.mp there with rfl | later
          · exact Or.inl ⟨tag, rfl, List.mem_append_left _ List.mem_cons_self, by simpa using allowed⟩
          · exact (sanitizeNodes_survives children part later).mono inside
      · exact (sanitizeNodes_survives children part there).mono inside

/-- Nothing survives but cleaned tags of allowed elements and character data. -/
theorem sanitizeNodes_survives (nodes : List Node) :
    ∀ part ∈ partsOf (sanitizeNodes allowLink nodes), part.Survives allowLink nodes := by
  intro part there
  match nodes with
  | [] => cases there
  | node :: rest =>
      rw [sanitizeNodes, mem_partsOf_append] at there
      rcases there with first | others
      · refine (Node.sanitize_survives node part first).mono fun p found => ?_
        rw [partsOf, partsOf, List.append_nil] at found
        exact List.mem_append_left _ found
      · exact (sanitizeNodes_survives rest part others).mono fun p found =>
          List.mem_append_right _ found
end

mutual
theorem Node.exists_data_sanitize (node : Node) :
    (∃ chars, .leaf (.characterData chars) ∈ partsOf (node.sanitize allowLink)) ↔
      node.showsData = true := by
  match node with
  | .text _ | .comment _ | .declaration _ | .documentType _ | .instruction _ =>
      simp [Node.sanitize, Node.showsData, partsOf, Node.parts]
  | .characterData chars => simp [Node.sanitize, Node.showsData, partsOf, Node.parts]
  | .element tag children =>
      have inside := exists_data_sanitizeNodes children
      rw [Node.sanitize, Node.showsData]
      split
      · next dropped =>
          rw [dropped]
          simp [partsOf]
      · next kept =>
          rw [Bool.not_eq_true] at kept
          rw [kept, Bool.not_false, Bool.true_and, ← inside]
          split
          · simp [partsOf, Node.parts]
          · exact Iff.rfl

/-- Character data survives where no dropped element holds it. -/
theorem exists_data_sanitizeNodes (nodes : List Node) :
    (∃ chars, .leaf (.characterData chars) ∈ partsOf (sanitizeNodes allowLink nodes)) ↔
      nodesShowData nodes = true := by
  match nodes with
  | [] => simp [sanitizeNodes, nodesShowData, partsOf]
  | node :: rest =>
      rw [nodesShowData, Bool.or_eq_true, ← Node.exists_data_sanitize node,
        ← exists_data_sanitizeNodes rest, ← exists_or]
      refine exists_congr fun chars => ?_
      rw [sanitizeNodes, mem_partsOf_append]
end

/-! ## What has been read -/

variable {markup : List Char}

theorem parse_eq_ok (h : parse markup = .ok nodes) : nodes = treeOf (tokenize markup).events := by
  rw [parse] at h
  split at h
  · cases h
  · exact (Except.ok.inj h).symm

theorem parse_names (h : parse markup = .ok nodes) {own : Tag} (there : .tag own ∈ partsOf nodes) :
    (∃ written, own.name = nameOf written) ∧
      ∀ a ∈ own.attributes, ∃ written, a.1 = nameOf written := by
  rw [parse_eq_ok h] at there
  obtain ⟨located, found, name, attributes, selfClosing, event, rfl⟩ := tag_mem_treeOf.mp there
  obtain ⟨_, _, sound⟩ := tokenize_sound markup located found
  rw [event] at sound
  obtain ⟨_, isRead, attributes⟩ := sound
  refine ⟨isRead, ?_⟩
  rintro ⟨n, v⟩ inside
  obtain ⟨a, among, rfl, _⟩ := mem_attributesOf inside
  exact attributes a among

theorem parse_data (h : parse markup = .ok nodes) {chars : List Char}
    (there : .leaf (.characterData chars) ∈ partsOf nodes) (i : Nat) :
    startsSectionEnd 2 (chars.drop i) = false := by
  rw [parse_eq_ok h] at there
  rcases characterData_treeOf there with rfl | rfl | ⟨located, found, text, event, data⟩
  · rcases i with _ | _ | i <;> rfl
  · rcases i with _ | _ | i <;> rfl
  · obtain ⟨_, _, sound⟩ := tokenize_sound markup located found
    rw [event] at sound
    have rest : chars = text.drop 6 := by
      rw [characterData?] at data
      split at data
      · exact (Option.some.inj data).symm
      · cases data
    rw [rest, List.drop_drop]
    exact sound _

/-! ## What is written -/

theorem allowedElements_isName : ∀ name ∈ allowedElements,
    IsName name ∧ name ∉ unescapedElements := by
  decide +kernel

theorem allowedAttributes_isName : ∀ name ∈ allowedAttributes, IsName name := by
  decide +kernel

/-- What survives of markup can be written, and is allowed unless it is character data. -/
theorem Part.Survives.proper (h : parse markup = .ok nodes) {part : Part}
    (survives : part.Survives allowLink nodes) :
    part.Proper ∧ (part.Allowed allowLink ∨ ∃ chars, part = .leaf (.characterData chars)) := by
  rcases survives with ⟨own, rfl, there, allowed⟩ | ⟨chars, rfl, there⟩
  · obtain ⟨isRead, attributes⟩ := parse_names h there
    -- the name that is looked up has been put in small letters once more
    rw [IsName.of_nameOf isRead (allowedElements_isName _ allowed).1] at allowed
    have kept : ∀ a ∈ (own.clean allowLink).attributes,
        a.1 ∈ allowedAttributes ∧ (a.1 ∈ linkAttributes → allowLink a.2 = true) := by
      intro a inside
      obtain ⟨found, keeps⟩ := List.mem_filter.mp inside
      simp only [keepsAttribute, Bool.and_eq_true, Bool.or_eq_true, Bool.not_eq_true',
        List.contains_iff_mem] at keeps
      rw [IsName.of_nameOf (attributes a found) (allowedAttributes_isName _ keeps.1)] at keeps
      refine ⟨keeps.1, fun link => keeps.2.resolve_left ?_⟩
      simp [link]
    refine ⟨⟨(allowedElements_isName _ allowed).1, (allowedElements_isName _ allowed).2, ?_⟩, ?_⟩
    · exact fun a inside => allowedAttributes_isName _ (kept a inside).1
    · exact Or.inl ⟨allowed, kept⟩
  · exact ⟨parse_data h there, Or.inr ⟨chars, rfl⟩⟩

/-! ## Reading it again -/

theorem attributeValue_link {name : String} (link : name ∈ linkAttributes) (element : String)
    (value : List Char) : attributeValue element name value = value := by
  have everywhere : listAttributes.contains name = false := by
    revert name
    decide +kernel
  have here : (listAttributesOf element).contains name = false := by
    unfold listAttributesOf
    split <;> (revert name; decide +kernel)
  rw [attributeValue, everywhere, here]
  rfl

/-- A start tag that is read from what was written for a tree is that of a tag of the tree. -/
theorem startTag_of_render {offset : Nat} {name : String} {attributes : List Attribute}
    {selfClosing : Bool}
    (there : ⟨offset, .startTag name attributes selfClosing⟩ ∈ eventsFrom 0 (chunksOf nodes)) :
    ∃ own, .tag own ∈ partsOf nodes ∧ name = own.name ∧ ∀ a ∈ attributes,
      ∃ value, (a.name, value) ∈ own.attributes ∧ a.value = some value := by
  obtain ⟨chunk, among, event⟩ := mem_eventsFrom there
  cases chunk with
  | plain _ | reference _ | closing _ | data _ => cases event
  | opening n written =>
      cases event
      obtain ⟨own, found, same⟩ := opening_mem_chunksOf among
      cases same
      refine ⟨own, found, rfl, ?_⟩
      intro a inside
      obtain ⟨w, isWritten, rfl⟩ := List.mem_map.mp inside
      obtain ⟨⟨n, value⟩, sorted, rfl⟩ := List.mem_map.mp isWritten
      rw [writtenAttribute_read]
      exact ⟨value, List.mem_mergeSort.mp sorted, rfl⟩

theorem startTag_allowed (allowed : ∀ own, .tag own ∈ partsOf nodes → (Part.tag own).Allowed allowLink)
    {offset : Nat} {name : String} {attributes : List Attribute} {selfClosing : Bool}
    (there : ⟨offset, .startTag name attributes selfClosing⟩ ∈ eventsFrom 0 (chunksOf nodes)) :
    (Event.startTag name attributes selfClosing).Allowed allowLink := by
  obtain ⟨own, found, rfl, all⟩ := startTag_of_render there
  refine ⟨(allowed own found).1, ?_⟩
  intro a inside
  obtain ⟨value, own', same⟩ := all a inside
  rw [same]
  exact (allowed own found).2 _ own'

/-- Read again, what was written for a tree of allowed tags has no other tags. -/
theorem tag_of_render (proper : ∀ part ∈ partsOf nodes, part.Proper)
    (allowed : ∀ own, .tag own ∈ partsOf nodes → (Part.tag own).Allowed allowLink) {tag : Tag}
    (there : .tag tag ∈ partsOf (treeOf (tokenize (render nodes)).events)) :
    (Part.tag tag).Allowed allowLink := by
  rw [tokenize_render proper] at there
  obtain ⟨⟨offset, event⟩, found, name, attributes, selfClosing, rfl, rfl⟩ := tag_mem_treeOf.mp there
  rw [mem_joined (by simp)] at found
  obtain ⟨element, all⟩ := startTag_allowed allowed found
  refine ⟨element, ?_⟩
  rintro ⟨n, value⟩ inside
  obtain ⟨a, among, rfl, rfl⟩ := mem_attributesOf inside
  refine ⟨(all a among).1, fun link => ?_⟩
  rw [attributeValue_link link]
  exact (all a among).2 link

theorem bracket_writtenAttribute (name : String) (value : List Char) :
    '<' ∉ (writtenAttribute name value).inside := by
  have one : ∀ {c : Char} {text : List Char}, WrittenAs c text → '<' ∉ text := by
    rintro c text (⟨_, less, _⟩ | w)
    · exact fun there => less (List.mem_singleton.mp there).symm
    · cases w <;> decide
  have escaped : '<' ∉ escapeText value := fun there => by
    obtain ⟨c, _, inside⟩ := List.mem_flatMap.mp there
    exact one (writtenAs_escapeTextChar c) inside
  have quoted : '<' ∉ value.flatMap escapeQuoted := fun there => by
    obtain ⟨c, _, inside⟩ := List.mem_flatMap.mp there
    exact one (writtenAs_escapeQuoted c) inside
  unfold writtenAttribute
  dsimp only
  split
  · split
    · exact quoted
    · exact escaped
  · exact escaped

theorem data_of_render (proper : ∀ part ∈ partsOf nodes, part.Proper) {chars : List Char}
    (there : .leaf (.characterData chars) ∈ partsOf nodes) :
    ∃ data, .leaf (.characterData data) ∈ partsOf (treeOf (tokenize (render nodes)).events) := by
  rw [tokenize_render proper, characterData_mem_treeOf]
  obtain ⟨offset, found⟩ := exists_mem_eventsFrom (data_mem_chunksOf nodes there) 0
  exact ⟨_, (mem_joined (by simp [Chunk.event])).mpr found, _, _, rfl, rfl⟩

/-- Where there is no character data, only text is read again besides the tags. -/
theorem leaf_of_render (proper : ∀ part ∈ partsOf nodes, part.Proper)
    (none : ∀ chunk ∈ chunksOf nodes, ∀ chars, chunk ≠ .data chars) (leaf : Node) :
    .leaf leaf ∉ partsOf (treeOf (tokenize (render nodes)).events) := by
  intro there
  obtain ⟨⟨offset, event⟩, found, makes⟩ := leaf_mem_treeOf there
  rw [tokenize_render proper, mem_joined (by rintro text rfl; exact makes)] at found
  obtain ⟨chunk, among, rfl⟩ := mem_eventsFrom found
  cases chunk with
  | plain _ | reference _ | opening _ _ | closing _ => exact makes.elim
  | data chars => exact none _ among chars rfl

/-- Where there is no character data, a bracket stands at the start of its chunk. -/
theorem bracket_start_of_render (proper : ∀ part ∈ partsOf nodes, part.Proper)
    (none : ∀ chunk ∈ chunksOf nodes, ∀ chars, chunk ≠ .data chars) :
    ∀ chunk ∈ chunksOf nodes, ∀ i, chunk.text[i]? = some '<' → i = 0 := by
  intro chunk among i there
  refine Chunk.bracket_start (chunksOf_proper proper chunk among) (none chunk among) ?_ there
  -- in the value of an attribute a bracket is written as a reference
  rintro name attributes rfl a inside
  obtain ⟨own, _, same⟩ := opening_mem_chunksOf among
  cases same
  obtain ⟨⟨n, value⟩, _, rfl⟩ := List.mem_map.mp inside
  exact bracket_writtenAttribute n value

/-- Where there is no character data, every bracket starts an allowed tag. -/
theorem bracket_of_render (proper : ∀ part ∈ partsOf nodes, part.Proper)
    (allowed : ∀ own, .tag own ∈ partsOf nodes → (Part.tag own).Allowed allowLink)
    (none : ∀ chunk ∈ chunksOf nodes, ∀ chars, chunk ≠ .data chars) {i : Nat}
    (bracket : (render nodes)[i]? = some '<') :
    ∃ event, ⟨i, event⟩ ∈ (tokenize (render nodes)).events ∧ event.Allowed allowLink := by
  rw [render, renderNodes_eq nodes proper] at bracket
  obtain ⟨chunk, among, first, found⟩ :=
    bracket_mem_eventsFrom (bracket_start_of_render proper none) bracket
  rw [Nat.zero_add] at found
  rw [tokenize_render proper]
  -- a tag, as nothing else starts with a bracket
  cases chunk with
  | plain c =>
      cases first
      cases chunksOf_proper proper _ among
  | reference w => cases w <;> cases first
  | data chars => exact absurd rfl (none _ among chars)
  | opening name attributes =>
      exact ⟨_, (mem_joined (by simp [Chunk.event])).mpr found, startTag_allowed allowed found⟩
  | closing name =>
      obtain ⟨own, inside, rfl⟩ := closing_mem_chunksOf among
      exact ⟨_, (mem_joined (by simp [Chunk.event])).mpr found, (allowed own inside).1⟩

/-- What is written for a tree of allowed tags is clean, unless there is character data in it. -/
theorem render_clean_iff (proper : ∀ part ∈ partsOf nodes, part.Proper)
    (allowed : ∀ own, .tag own ∈ partsOf nodes → (Part.tag own).Allowed allowLink) :
    CleanMarkup allowLink (render nodes) ↔
      ¬∃ chars, .leaf (.characterData chars) ∈ partsOf nodes := by
  have read : parse (render nodes) = .ok (treeOf (tokenize (render nodes)).events) := by
    rw [parse, tokenize_render proper]
  constructor
  · rintro ⟨⟨again, isRead, all⟩, _⟩ ⟨chars, there⟩
    cases read.symm.trans isRead
    obtain ⟨data, found⟩ := data_of_render proper there
    exact all _ found
  · intro none
    have noData : ∀ chunk ∈ chunksOf nodes, ∀ chars, chunk ≠ .data chars := by
      rintro _ there chars rfl
      exact none ⟨chars, part_of_data_mem_chunksOf there⟩
    refine ⟨⟨_, read, ?_⟩, fun i bracket => bracket_of_render proper allowed noData bracket⟩
    rintro (tag | leaf) there
    · exact tag_of_render proper allowed there
    · exact absurd there (leaf_of_render proper noData leaf)

/-! ## The sanitizer -/

/-- Sanitized markup is written for a tree of proper parts and allowed tags. -/
theorem sanitizeMarkup_eq_ok {out : List Char} (h : sanitizeMarkup allowLink markup = .ok out) :
    ∃ nodes, parse markup = .ok nodes ∧ out = render (sanitizeNodes allowLink nodes) ∧
      (∀ part ∈ partsOf (sanitizeNodes allowLink nodes), part.Proper) ∧
      ∀ own, .tag own ∈ partsOf (sanitizeNodes allowLink nodes) →
        (Part.tag own).Allowed allowLink := by
  rw [sanitizeMarkup] at h
  cases read : parse markup with
  | error why =>
      rw [read] at h
      cases h
  | ok nodes =>
      rw [read] at h
      have survives : ∀ part ∈ partsOf (sanitizeNodes allowLink nodes), part.Proper ∧
          (part.Allowed allowLink ∨ ∃ chars, part = .leaf (.characterData chars)) :=
        fun part there => (sanitizeNodes_survives nodes part there).proper read
      refine ⟨nodes, rfl, (Except.ok.inj h).symm, fun part there => (survives part there).1, ?_⟩
      intro own there
      rcases (survives _ there).2 with allowed | ⟨chars, same⟩
      · exact allowed
      · cases same

/-- Sanitized markup is clean if and only if no character data stands outside the dropped
elements. -/
theorem sanitizeMarkup_clean_iff {out : List Char}
    (h : sanitizeMarkup allowLink markup = .ok out) :
    CleanMarkup allowLink out ↔ (parse markup).map nodesShowData = .ok false := by
  obtain ⟨nodes, read, rfl, proper, allowed⟩ := sanitizeMarkup_eq_ok h
  have shown : (Except.ok nodes : Except MarkupError _).map nodesShowData = .ok false ↔
      ¬nodesShowData nodes = true := by
    simp [Except.map]
  rw [read, shown, ← @exists_data_sanitizeNodes allowLink nodes]
  exact render_clean_iff proper allowed

/-- Markup with an element of every fate: kept, dropped and unwrapped. -/
def mixedMarkup : List Char :=
  "<p onclick=a title=b>c<script>d</script><x>e</x><!--f--></p>".toList

theorem sanitizeMarkup_mixedMarkup :
    sanitizeMarkup (fun _ => false) mixedMarkup = .ok "<p title=\"b\">ce</p>".toList ∧
      CleanMarkup (fun _ => false) "<p title=\"b\">ce</p>".toList := by
  have read : sanitizeMarkup (fun _ => false) mixedMarkup =
      .ok "<p title=\"b\">ce</p>".toList := by
    decide +kernel
  exact ⟨read, (sanitizeMarkup_clean_iff read).mpr (by decide +kernel)⟩

/-- Markup with a script in a section of character data. -/
def sectionMarkup : List Char := "<![CDATA[<script>x</script>]]>".toList

/-- A section survives with everything in it. -/
theorem sanitizeMarkup_sectionMarkup :
    sanitizeMarkup (fun _ => false) sectionMarkup = .ok sectionMarkup ∧
      ¬CleanMarkup (fun _ => false) sectionMarkup := by
  refine ⟨by decide +kernel, fun clean => ?_⟩
  have events : (tokenize sectionMarkup).events =
      [⟨0, .marked "CDATA[<script>x</script>".toList⟩] := by
    decide +kernel
  obtain ⟨event, there, allowed⟩ := clean.brackets 0 (by decide +kernel)
  rw [events, List.mem_singleton] at there
  cases there
  exact allowed

end MessageCatalog.Markup
