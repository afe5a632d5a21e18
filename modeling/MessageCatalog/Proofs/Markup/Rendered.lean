import MessageCatalog.Markup.Sanitize
import MessageCatalog.Proofs.Markup.Pass
import MessageCatalog.Proofs.Markup.Tree

/-!
# MessageCatalog.Proofs.Markup.Rendered -- a tree is written as chunks

What is written for a tree of text, character data and elements with proper names is text of chunks:
one for a character, two for an element, one for character data. So it is read back chunk by chunk.
-/

namespace MessageCatalog.Markup

open MessageCatalog.Text

/-! ## Characters -/

/-- A character of text as it is written. -/
def textChunk (c : Char) : Chunk :=
  if c = '&' then .reference .ampersand
  else if c = '<' then .reference .less
  else if c = '>' then .reference .greater
  else .plain c

/-- A character of text is written as a reference for it or as itself. -/
theorem textChunk_cases (c : Char) :
    (∃ w : Written, c = w.char ∧ textChunk c = .reference w ∧ escapeTextChar c = w.text) ∨
      (c ≠ '&' ∧ c ≠ '<' ∧ c ≠ '>') ∧ textChunk c = .plain c ∧ escapeTextChar c = [c] := by
  simp only [textChunk, escapeTextChar, beq_iff_eq]
  split
  · next same => exact Or.inl ⟨.ampersand, same, rfl, rfl⟩
  split
  · next same => exact Or.inl ⟨.less, same, rfl, rfl⟩
  split
  · next same => exact Or.inl ⟨.greater, same, rfl, rfl⟩
  next ampersand less greater => exact Or.inr ⟨⟨ampersand, less, greater⟩, rfl, rfl⟩

theorem escapeText_eq (chars : List Char) : escapeText chars = textOf (chars.map textChunk) := by
  rw [escapeText, textOf, List.flatMap_map]
  refine congrArg (chars.flatMap ·) (funext fun c => ?_)
  rcases textChunk_cases c with ⟨w, _, chunk, text⟩ | ⟨_, chunk, text⟩ <;>
    rw [chunk, text] <;> rfl

theorem textChunk_proper (c : Char) : (textChunk c).Proper := by
  rcases textChunk_cases c with ⟨w, _, chunk, _⟩ | ⟨⟨ampersand, less, _⟩, chunk, _⟩
  · rw [chunk]
    trivial
  · rw [chunk]
    simp [Chunk.Proper, startsConstruct, ampersand, less]

/-! ## Attributes -/

/-- A character of a value that stands in double quotes and holds both quotes. -/
def escapeQuoted (c : Char) : List Char :=
  if c = '"' then Written.quotation.text else escapeTextChar c

theorem writtenAs_escapeTextChar (c : Char) : WrittenAs c (escapeTextChar c) := by
  rcases textChunk_cases c with ⟨w, rfl, _, text⟩ | ⟨⟨ampersand, less, greater⟩, _, text⟩
  · rw [text]
    exact .reference w
  · rw [text]
    exact .plain ampersand less greater

theorem writtenAs_escapeQuoted (c : Char) : WrittenAs c (escapeQuoted c) := by
  unfold escapeQuoted
  split
  · next same => exact same ▸ WrittenAs.reference .quotation
  · exact writtenAs_escapeTextChar c

/-- An attribute as it is written. -/
def writtenAttribute (name : String) (value : List Char) : WrittenAttribute :=
  let escaped := escapeText value
  if escaped.contains '"' then
    if escaped.contains '\'' then ⟨name, '"', value.flatMap escapeQuoted⟩
    else ⟨name, '\'', escaped⟩
  else ⟨name, '"', escaped⟩

/-- Only the quotation marks of text are still to be replaced in a value. -/
theorem escapeQuoted_eq (value : List Char) :
    value.flatMap escapeQuoted =
      (escapeText value).flatMap fun c => if c == '"' then "&quot;".toList else [c] := by
  rw [escapeText, List.flatMap_assoc]
  refine congrArg (value.flatMap ·) (funext fun c => ?_)
  by_cases quotation : c = '"'
  · subst quotation
    decide
  rw [escapeQuoted, if_neg quotation]
  rcases textChunk_cases c with ⟨w, same, _, text⟩ | ⟨_, _, text⟩
  · rw [text]
    cases w with
    | quotation => exact absurd same quotation
    | ampersand | less | greater => decide
  · rw [text, List.flatMap_singleton, if_neg (fun same => quotation (beq_iff_eq.mp same))]

theorem writtenAttribute_name (name : String) (value : List Char) :
    (writtenAttribute name value).name = name := by
  unfold writtenAttribute
  dsimp only
  split
  · split <;> rfl
  · rfl

theorem writtenAttribute_text (name : String) (value : List Char) :
    (writtenAttribute name value).text = ' ' :: name.toList ++ ['='] ++ quoteValue value := by
  simp only [writtenAttribute, quoteValue, ← escapeQuoted_eq]
  split
  · split <;> simp [WrittenAttribute.text]
  · simp [WrittenAttribute.text]

theorem quotation_escapeQuoted (c : Char) : '"' ∉ escapeQuoted c := by
  by_cases quotation : c = '"'
  · subst quotation
    decide
  rw [escapeQuoted, if_neg quotation]
  rcases textChunk_cases c with ⟨w, _, _, text⟩ | ⟨_, _, text⟩
  · rw [text]
    cases w <;> decide
  · rw [text]
    exact fun there => quotation (List.mem_singleton.mp there).symm

theorem writtenAttribute_proper {name : String} (isName : IsName name) (value : List Char) :
    (writtenAttribute name value).Proper := by
  unfold writtenAttribute
  dsimp only
  split
  · split
    · refine ⟨isName, Or.inl rfl, ?_⟩
      simp [quotation_escapeQuoted]
    · next none => exact ⟨isName, Or.inr rfl, by simpa using none⟩
  · next none => exact ⟨isName, Or.inl rfl, by simpa using none⟩

/-- A value is read as it was, whichever quotes it stands in. -/
theorem writtenAttribute_read (name : String) (value : List Char) :
    (writtenAttribute name value).read = ⟨name, some value⟩ := by
  have escaped := resolve_flatMap writtenAs_escapeTextChar value
  have quoted := resolve_flatMap writtenAs_escapeQuoted value
  unfold writtenAttribute WrittenAttribute.read
  dsimp only
  split
  · split
    · rw [quoted]
    · rw [escapeText, escaped]
  · rw [escapeText, escaped]

/-! ## Trees -/

/-- The start tag of an element as it is written. -/
def Tag.opening (tag : Tag) : Chunk :=
  .opening tag.name
    ((tag.attributes.mergeSort nameBefore).map fun (name, value) => writtenAttribute name value)

theorem Tag.render_eq (tag : Tag) : tag.render = tag.opening.text := by
  rw [render, opening, Chunk.text, startTagText, attributesText, List.flatMap_map]
  simp [writtenAttribute_text]

mutual
/-- The chunks of a node. Comments, declarations and instructions have none. -/
def Node.chunks : Node → List Chunk
  | .text chars => chars.map textChunk
  | .characterData chars => [.data chars]
  | .element tag children =>
    tag.opening :: chunksOf children ++
      if children.isEmpty && emptyElements.contains tag.name then [] else [.closing tag.name]
  | _ => []

/-- The chunks of some nodes. -/
def chunksOf : List Node → List Chunk
  | [] => []
  | node :: rest => node.chunks ++ chunksOf rest
end

/-- What a part has to be like to be written as chunks. -/
def Part.Proper : Part → Prop
  | .tag own =>
    IsName own.name ∧ own.name ∉ unescapedElements ∧ ∀ a ∈ own.attributes, IsName a.1
  | .leaf (.characterData chars) => ∀ i, startsSectionEnd 2 (chars.drop i) = false
  | .leaf _ => False

theorem textOf_append (chunks others : List Chunk) :
    textOf (chunks ++ others) = textOf chunks ++ textOf others := List.flatMap_append

theorem Node.render_text (chars : List Char) :
    (Node.text chars).render true = escapeText chars := by
  unfold render
  rfl

theorem Node.render_characterData (chars : List Char) :
    (Node.characterData chars).render true = (Chunk.data chars).text := by
  have opened : "<![CDATA[".toList = '<' :: '!' :: '[' :: sectionName := by decide
  have closed : "]]>".toList = [']', ']', '>'] := by decide
  unfold render
  rw [opened, closed]
  rfl

/-- An element is written as its tags and, where text is escaped in it, its children. -/
theorem Node.render_element {tag : Tag} (children : List Node)
    (escaped : tag.name ∉ unescapedElements) :
    (Node.element tag children).render true = tag.render ++ renderNodes true children ++
      if children.isEmpty && emptyElements.contains tag.name then []
      else (Chunk.closing tag.name).text := by
  have inside : (!unescapedElements.contains tag.name) = true := by simpa using escaped
  cases children with
  | nil =>
      unfold render
      split <;> simp_all [renderNodes, Chunk.text]
  | cons child children =>
      unfold render
      rw [inside]
      rfl

mutual
theorem Node.render_eq (node : Node) (proper : ∀ part ∈ node.parts, part.Proper) :
    node.render true = textOf node.chunks := by
  match node with
  | .text chars =>
      rw [Node.render_text, Node.chunks]
      exact escapeText_eq chars
  | .characterData chars =>
      rw [Node.render_characterData, Node.chunks, textOf_cons]
      exact (List.append_nil _).symm
  | .element tag children =>
      rw [Node.parts, List.forall_mem_cons] at proper
      obtain ⟨⟨_, escaped, _⟩, inside⟩ := proper
      rw [Node.render_element children escaped, renderNodes_eq children inside, Node.chunks,
        textOf_append, textOf_cons, ← Tag.render_eq]
      split
      · rfl
      · rw [textOf_cons]
        exact congrArg _ (List.append_nil _).symm
  | .comment _ | .declaration _ | .documentType _ | .instruction _ =>
      exact (proper _ (List.mem_singleton.mpr rfl)).elim

/-- A tree of proper parts is written as its chunks. -/
theorem renderNodes_eq (nodes : List Node) (proper : ∀ part ∈ partsOf nodes, part.Proper) :
    renderNodes true nodes = textOf (chunksOf nodes) := by
  match nodes with
  | [] => rfl
  | node :: rest =>
      rw [partsOf, List.forall_mem_append] at proper
      rw [renderNodes, chunksOf, Node.render_eq node proper.1, renderNodes_eq rest proper.2,
        textOf_append]
end

/-! ## Their chunks -/

variable {nodes : List Node}

/-- The chunks that a part is written as. -/
def Part.chunks : Part → List Chunk
  | .tag own => [own.opening, .closing own.name]
  | .leaf (.characterData chars) => [.data chars]
  | .leaf _ => []

mutual
theorem Node.mem_chunks (node : Node) {chunk : Chunk} (there : chunk ∈ node.chunks) :
    (∃ c, chunk = textChunk c) ∨ ∃ part ∈ node.parts, chunk ∈ part.chunks := by
  match node with
  | .text chars =>
      obtain ⟨c, _, same⟩ := List.mem_map.mp there
      exact Or.inl ⟨c, same.symm⟩
  | .characterData chars => exact Or.inr ⟨_, List.mem_cons_self, there⟩
  | .element tag children =>
      have own : Part.tag tag ∈ (Node.element tag children).parts := List.mem_cons_self
      rw [Node.chunks] at there
      rcases List.mem_append.mp there with front | back
      · rcases List.mem_cons.mp front with rfl | inside
        · exact Or.inr ⟨_, own, List.mem_cons_self⟩
        · refine (mem_chunksOf children inside).imp_right ?_
          rintro ⟨part, found, same⟩
          exact ⟨part, List.mem_cons_of_mem _ found, same⟩
      · split at back
        · cases back
        · exact Or.inr ⟨_, own, List.mem_cons_of_mem _ back⟩
  | .comment _ | .declaration _ | .documentType _ | .instruction _ => cases there

/-- Every chunk of a tree is one of its text or of one of its parts. -/
theorem mem_chunksOf (nodes : List Node) {chunk : Chunk} (there : chunk ∈ chunksOf nodes) :
    (∃ c, chunk = textChunk c) ∨ ∃ part ∈ partsOf nodes, chunk ∈ part.chunks := by
  match nodes with
  | [] => cases there
  | node :: rest =>
      rw [chunksOf] at there
      rcases List.mem_append.mp there with first | others
      · refine (Node.mem_chunks node first).imp_right ?_
        rintro ⟨part, found, same⟩
        exact ⟨part, List.mem_append_left _ found, same⟩
      · refine (mem_chunksOf rest others).imp_right ?_
        rintro ⟨part, found, same⟩
        exact ⟨part, List.mem_append_right _ found, same⟩
end

mutual
theorem Node.data_mem_chunks (node : Node) {chars : List Char}
    (there : .leaf (.characterData chars) ∈ node.parts) : .data chars ∈ node.chunks := by
  match node with
  | .characterData own =>
      cases List.mem_singleton.mp there
      exact List.mem_cons_self
  | .element tag children =>
      rcases List.mem_cons.mp there with same | inside
      · cases same
      · exact List.mem_append_left _ (List.mem_cons_of_mem _ (data_mem_chunksOf children inside))
  | .text _ => cases there
  | .comment _ | .declaration _ | .documentType _ | .instruction _ =>
      cases List.mem_singleton.mp there

/-- Character data of a tree is among its chunks. -/
theorem data_mem_chunksOf (nodes : List Node) {chars : List Char}
    (there : .leaf (.characterData chars) ∈ partsOf nodes) : .data chars ∈ chunksOf nodes := by
  match nodes with
  | [] => cases there
  | node :: rest =>
      rcases List.mem_append.mp there with first | others
      · exact List.mem_append_left _ (Node.data_mem_chunks node first)
      · exact List.mem_append_right _ (data_mem_chunksOf rest others)
end

/-- The tags and the character data of a tree are chunks of its parts. -/
theorem part_of_mem_chunksOf {chunk : Chunk} (there : chunk ∈ chunksOf nodes)
    (notReference : ∀ w, chunk ≠ .reference w) (notPlain : ∀ c, chunk ≠ .plain c) :
    ∃ part ∈ partsOf nodes, chunk ∈ part.chunks := by
  refine (mem_chunksOf nodes there).resolve_left ?_
  rintro ⟨c, same⟩
  rcases textChunk_cases c with ⟨w, _, reference, _⟩ | ⟨_, plain, _⟩
  · exact notReference w (same.trans reference)
  · exact notPlain c (same.trans plain)

theorem opening_mem_chunksOf {name : String} {attributes : List WrittenAttribute}
    (there : .opening name attributes ∈ chunksOf nodes) :
    ∃ own, .tag own ∈ partsOf nodes ∧ .opening name attributes = own.opening := by
  obtain ⟨part, found, own⟩ := part_of_mem_chunksOf there (by simp) (by simp)
  match part, own with
  | .tag tag, own => exact ⟨tag, found, by simpa [Part.chunks] using own⟩
  | .leaf (.characterData _), own => simp [Part.chunks] at own

theorem closing_mem_chunksOf {name : String} (there : .closing name ∈ chunksOf nodes) :
    ∃ own, .tag own ∈ partsOf nodes ∧ name = own.name := by
  obtain ⟨part, found, own⟩ := part_of_mem_chunksOf there (by simp) (by simp)
  match part, own with
  | .tag tag, own => exact ⟨tag, found, by simpa [Part.chunks, Tag.opening] using own⟩
  | .leaf (.characterData _), own => simp [Part.chunks] at own

theorem part_of_data_mem_chunksOf {chars : List Char} (there : .data chars ∈ chunksOf nodes) :
    .leaf (.characterData chars) ∈ partsOf nodes := by
  obtain ⟨part, found, own⟩ := part_of_mem_chunksOf there (by simp) (by simp)
  match part, own with
  | .tag tag, own => simp [Part.chunks, Tag.opening] at own
  | .leaf (.characterData _), own =>
      cases List.mem_singleton.mp own
      exact found

theorem Part.chunks_proper {part : Part} (proper : part.Proper) :
    ∀ chunk ∈ part.chunks, chunk.Proper := by
  intro chunk there
  match part, proper with
  | .tag own, ⟨isName, escaped, attributes⟩ =>
      rcases List.mem_cons.mp there with rfl | closing
      · refine ⟨isName, ?_, escaped⟩
        intro a found
        obtain ⟨⟨name, value⟩, inside, rfl⟩ := List.mem_map.mp found
        exact writtenAttribute_proper (attributes _ (List.mem_mergeSort.mp inside)) value
      · cases List.mem_singleton.mp closing
        exact isName
  | .leaf (.characterData chars), ends =>
      cases List.mem_singleton.mp there
      exact ends

theorem chunksOf_proper (proper : ∀ part ∈ partsOf nodes, part.Proper) :
    ∀ chunk ∈ chunksOf nodes, chunk.Proper := by
  intro chunk there
  rcases mem_chunksOf nodes there with ⟨c, rfl⟩ | ⟨part, found, own⟩
  · exact textChunk_proper c
  · exact Part.chunks_proper (proper part found) chunk own

/-- What is written for a tree is read as the events of its chunks. -/
theorem tokenize_render (proper : ∀ part ∈ partsOf nodes, part.Proper) :
    tokenize (render nodes) = ⟨joined (eventsFrom 0 (chunksOf nodes)), none⟩ := by
  rw [render, renderNodes_eq nodes proper]
  exact tokenize_textOf (chunksOf_proper proper)

end MessageCatalog.Markup
