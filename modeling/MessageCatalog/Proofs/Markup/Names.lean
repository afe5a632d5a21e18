import MessageCatalog.Proofs.Markup.Place

/-!
# MessageCatalog.Proofs.Markup.Names -- the names in a page

The names of a tree are those of its elements and of their attributes. Text of chunks has the names
of its chunks. Where no bracket that stands before a letter is closed there are no names at all.
-/

namespace MessageCatalog.Markup

open MessageCatalog.Text

/-! ## Names of trees -/

/-- The names in a start tag. -/
def Tag.names (tag : Tag) : List MarkupName :=
  .element tag.name :: tag.attributes.map fun a => .inElement tag.name a.1

/-- The names in a tree. -/
def namesOf (nodes : List Node) : List MarkupName :=
  (allElements nodes).flatMap fun element => element.tag.names

variable {nodes : List Node} {name : MarkupName}

theorem mem_namesOf : name ∈ namesOf nodes ↔ ∃ tag, .tag tag ∈ partsOf nodes ∧ name ∈ tag.names := by
  simp only [namesOf, List.mem_flatMap, mem_tags]
  constructor
  · rintro ⟨element, there, own⟩
    exact ⟨element.tag, ⟨element, there, rfl⟩, own⟩
  · rintro ⟨_, ⟨element, there, rfl⟩, own⟩
    exact ⟨element, there, own⟩

theorem mem_names_startTag {element : String} {attributes : List Attribute} {offset : Nat} :
    name ∈ (⟨element, attributesOf element attributes, offset⟩ : Tag).names ↔
      name = .element element ∨ ∃ a ∈ attributes, name = .inElement element a.name := by
  simp only [Tag.names, List.mem_cons, List.mem_map]
  refine or_congr_right ?_
  constructor
  · rintro ⟨⟨n, value⟩, there, rfl⟩
    obtain ⟨a, inside, rfl⟩ := (exists_mem_attributesOf _ _ _).mp ⟨value, there⟩
    exact ⟨a, inside, rfl⟩
  · rintro ⟨a, inside, rfl⟩
    obtain ⟨value, there⟩ := (exists_mem_attributesOf element a.name _).mpr ⟨a, inside, rfl⟩
    exact ⟨(a.name, value), there, rfl⟩

/-! ## Text of chunks -/

theorem parse_textOf {chunks : List Chunk} (proper : ∀ chunk ∈ chunks, chunk.Proper) :
    parse (textOf chunks) = .ok (treeOf (joined (eventsFrom 0 chunks))) := by
  rw [parse, tokenize_textOf proper]

theorem mem_names_opening {element : String} {attributes : List WrittenAttribute} :
    name ∈ (Chunk.opening element attributes).names ↔ name = .element element ∨
      ∃ a ∈ attributes.map WrittenAttribute.read, name = .inElement element a.name := by
  simp only [Chunk.names, List.mem_cons, List.mem_map]
  refine or_congr_right ?_
  constructor
  · rintro ⟨a, there, rfl⟩
    exact ⟨a.read, ⟨a, there, rfl⟩, rfl⟩
  · rintro ⟨_, ⟨a, there, rfl⟩, rfl⟩
    exact ⟨a, there, rfl⟩

/-- Text of chunks has the names of its chunks. -/
theorem mem_namesOf_textOf {chunks : List Chunk} :
    name ∈ namesOf (treeOf (joined (eventsFrom 0 chunks))) ↔ name ∈ chunks.flatMap Chunk.names := by
  simp only [mem_namesOf, tag_mem_treeOf, List.mem_flatMap]
  constructor
  · rintro ⟨_, ⟨located, there, element, attributes, selfClosing, event, rfl⟩, own⟩
    rw [mem_joined (by simp [event])] at there
    obtain ⟨chunk, among, same⟩ := mem_eventsFrom there
    refine ⟨chunk, among, ?_⟩
    rw [event] at same
    cases chunk with
    | plain _ | reference _ | closing _ | data _ => cases same
    | opening n written =>
        cases same
        exact mem_names_opening.mpr (mem_names_startTag.mp own)
  · rintro ⟨chunk, among, own⟩
    cases chunk with
    | plain _ | reference _ | closing _ | data _ => cases own
    | opening n written =>
        obtain ⟨offset, found⟩ := exists_mem_eventsFrom among 0
        refine ⟨⟨n, attributesOf n (written.map WrittenAttribute.read), offset⟩,
          ⟨_, (mem_joined (by simp [Chunk.event])).mpr found, n, _, false, rfl, rfl⟩, ?_⟩
        exact mem_names_startTag.mpr (mem_names_opening.mp own)

/-! ## Sanitized markup -/

/-- No section stands in markup. -/
def NoSection (markup : List Char) : Prop :=
  ∀ located ∈ (tokenize markup).events, ∀ text, located.event ≠ .marked text

/-- Sanitized markup without a section leads from text to text. -/
theorem run_sanitized {allowLink : List Char → Bool} {markup out : List Char}
    (h : sanitizeMarkup allowLink markup = .ok out) (none : NoSection out) :
    Place.text.run out = .text := by
  obtain ⟨nodes, _, rfl, proper, allowed⟩ := sanitizeMarkup_eq_ok h
  rw [NoSection, tokenize_render proper] at none
  rw [render, renderNodes_eq _ proper]
  -- every tag is an allowed one, and character data would be an event of its own
  refine (Place.leads_textOf fun chunk among => ?_).1
  have own := chunksOf_proper proper chunk among
  cases chunk with
  | plain c => exact own
  | reference w => trivial
  | opening name attributes =>
      obtain ⟨tag, there, same⟩ := opening_mem_chunksOf among
      cases same
      refine ⟨(allowed tag there).1, fun a inside => ⟨?_, own.2.1 a inside⟩⟩
      obtain ⟨⟨n, value⟩, sorted, rfl⟩ := List.mem_map.mp inside
      rw [writtenAttribute_name]
      exact ((allowed tag there).2 _ (List.mem_mergeSort.mp sorted)).1
  | closing name =>
      obtain ⟨tag, there, rfl⟩ := closing_mem_chunksOf among
      exact (allowed tag there).1
  | data chars =>
      obtain ⟨offset, found⟩ := exists_mem_eventsFrom among 0
      exact absurd rfl (none _ ((mem_joined (by simp [Chunk.event])).mpr found) _)

/-! ## Without tags -/

/-- Where no bracket that stands before a letter is closed there are no elements. -/
theorem namesOf_eq_nil {text : List Char} (h : ∀ behind, behind <:+ text → ¬OpensTag behind)
    (read : parse text = .ok nodes) : namesOf nodes = [] := by
  refine List.eq_nil_iff_forall_not_mem.mpr fun name there => ?_
  obtain ⟨tag, inside, _⟩ := mem_namesOf.mp there
  rw [parse_eq_ok read, tag_mem_treeOf] at inside
  obtain ⟨located, found, element, attributes, selfClosing, event, _⟩ := inside
  obtain ⟨behind, suffix, sound⟩ := tokenize_sound text located found
  rw [event] at sound
  exact h behind suffix sound.1

end MessageCatalog.Markup
