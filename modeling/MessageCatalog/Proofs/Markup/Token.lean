import MessageCatalog.Proofs.Markup.Attributes
import MessageCatalog.Proofs.Markup.Sanitize

/-!
# MessageCatalog.Proofs.Markup.Token -- a tree as a line of tokens

What is written for a tree of text and elements is a line of tokens: texts, start tags and end tags.
The line is read as it was written, in whatever quotes the values of attributes stand. The tags of
the line nest. Elements without content are opened only; where one of them holds something all the
same, its end tag comes behind its start tag.
-/

namespace MessageCatalog.Markup

open MessageCatalog.Text

/-! ## Tokens -/

/-- A stretch of written markup. -/
inductive LineToken where
  | text (chars : List Char)
  | opens (name : String) (attributes : List (String × List Char))
  | closes (name : String)
  deriving DecidableEq

/-- A way to put the values of attributes in quotes. -/
abbrev Quoting := String → List Char → WrittenAttribute

/-- Values are read as they are written, and end where they end. -/
structure Quoting.Faithful (quote : Quoting) : Prop where
  proper : ∀ {name : String}, IsName name → ∀ value, (quote name value).Proper
  read : ∀ name value, (quote name value).read = ⟨name, some value⟩

theorem faithful_writtenAttribute : Quoting.Faithful writtenAttribute where
  proper := writtenAttribute_proper
  read := writtenAttribute_read

namespace LineToken

/-- The chunks of a token. -/
def chunks (quote : Quoting) : LineToken → List Chunk
  | text chars => chars.map textChunk
  | opens name attributes => [.opening name (attributes.map fun a => quote a.1 a.2)]
  | closes name => [.closing name]

/-- A token as a tree is written. -/
def write (token : LineToken) : List Char := textOf (token.chunks writtenAttribute)

/-- A token whose names are read to the letter. -/
def Proper : LineToken → Prop
  | text _ => True
  | opens name attributes => IsName name ∧ name ∉ rawTextElements ∧ ∀ a ∈ attributes, IsName a.1
  | closes name => IsName name

theorem chunks_proper {quote : Quoting} (faithful : quote.Faithful) {token : LineToken}
    (proper : token.Proper) : ∀ chunk ∈ token.chunks quote, chunk.Proper := by
  intro chunk there
  cases token with
  | text chars =>
      obtain ⟨c, -, rfl⟩ := List.mem_map.mp there
      exact textChunk_proper c
  | opens name attributes =>
      obtain rfl := List.mem_singleton.mp there
      obtain ⟨isName, outside, names⟩ := proper
      refine ⟨isName, fun written inside => ?_, outside⟩
      obtain ⟨a, found, rfl⟩ := List.mem_map.mp inside
      exact faithful.proper (names a found) a.2
  | closes name =>
      obtain rfl := List.mem_singleton.mp there
      exact proper

/-- A start tag is read with its values, whatever their quotes. -/
theorem event_opens {quote : Quoting} (faithful : quote.Faithful) (name : String)
    (attributes : List (String × List Char)) :
    (Chunk.opening name (attributes.map fun a => quote a.1 a.2)).event =
      .startTag name (asRead attributes) false := by
  have values : ∀ a : String × List Char, (quote a.1 a.2).read = ⟨a.1, some a.2⟩ :=
    fun a => faithful.read a.1 a.2
  simp [Chunk.event, asRead, values]

end LineToken

/-- The chunks of a line of tokens. -/
def lineChunks (quote : Quoting) (tokens : List LineToken) : List Chunk :=
  tokens.flatMap (LineToken.chunks quote)

/-- A line of tokens as it is written. -/
def lineText (quote : Quoting) (tokens : List LineToken) : List Char := textOf (lineChunks quote tokens)

theorem lineText_cons (quote : Quoting) (token : LineToken) (rest : List LineToken) :
    lineText quote (token :: rest) = textOf (token.chunks quote) ++ lineText quote rest := by
  rw [lineText, lineChunks, List.flatMap_cons, textOf_append]
  rfl

/-- A line of proper tokens is read as the events of its chunks. -/
theorem tokenize_lineText {quote : Quoting} (faithful : quote.Faithful) {tokens : List LineToken}
    (proper : ∀ token ∈ tokens, token.Proper) :
    tokenize (lineText quote tokens) =
      ⟨joined (eventsFrom 0 (lineChunks quote tokens)), none⟩ := by
  refine tokenize_textOf fun chunk there => ?_
  obtain ⟨token, inside, own⟩ := List.mem_flatMap.mp there
  exact LineToken.chunks_proper faithful (proper token inside) chunk own

/-! ## Nesting -/

/-- The tags of a line nest inside the elements that are open before it and close them. Elements
without content are not open; the end tag of one stands behind its start tag. -/
def Fits : (open' finished : List String) → List LineToken → Prop
  | open', _, [] => open' = []
  | open', finished, .text _ :: rest => Fits open' finished rest
  | open', finished, .opens name _ :: rest =>
    if name ∈ emptyElements then Fits open' (finished ++ [name]) rest
    else Fits (name :: open') finished rest
  | open', finished, .closes name :: rest =>
    if name ∈ emptyElements then name ∈ finished ∧ Fits open' (finished.erase name) rest
    else ∃ outer, open' = name :: outer ∧ Fits outer finished rest

/-- More finished elements do no harm. -/
theorem Fits.mono {tokens : List LineToken} {open' finished more : List String}
    (h : Fits open' finished tokens) (fewer : ∀ name, finished.count name ≤ more.count name) :
    Fits open' more tokens := by
  induction tokens generalizing open' finished more with
  | nil => exact h
  | cons token rest ih =>
      cases token with
      | text chars => exact ih h fewer
      | opens name attributes =>
          -- a finished element is put behind both lists, so neither falls back
          simp only [Fits] at h ⊢
          split
          · next empty =>
              rw [if_pos empty] at h
              refine ih h fun other => ?_
              rw [List.count_append, List.count_append]
              exact Nat.add_le_add_right (fewer other) _
          · next filled =>
              rw [if_neg filled] at h
              exact ih h fewer
      | closes name =>
          simp only [Fits] at h ⊢
          split
          · next empty =>
              rw [if_pos empty] at h
              refine ⟨List.count_pos_iff.mp (Nat.lt_of_lt_of_le (List.count_pos_iff.mpr h.1)
                (fewer name)), ih h.2 fun other => ?_⟩
              rw [List.count_erase, List.count_erase]
              exact Nat.sub_le_sub_right (fewer other) _
          · next filled =>
              rw [if_neg filled] at h
              obtain ⟨outer, same, inside⟩ := h
              exact ⟨outer, same, ih inside fewer⟩

/-! ## The tokens of a tree -/

mutual
/-- The tokens of a node. Leaves other than text have none. -/
def Node.tokens : Node → List LineToken
  | .text chars => [.text chars]
  | .element tag children =>
    .opens tag.name (inOrder tag.attributes) :: tokensOf children ++
      if children.isEmpty && emptyElements.contains tag.name then [] else [.closes tag.name]
  | _ => []

/-- The tokens of some nodes. -/
def tokensOf : List Node → List LineToken
  | [] => []
  | node :: rest => node.tokens ++ tokensOf rest
end

variable {nodes : List Node}

mutual
theorem Node.mem_tokens (node : Node) {token : LineToken} (there : token ∈ node.tokens) :
    (∃ chars, token = .text chars) ∨ ∃ tag, .tag tag ∈ node.parts ∧
      (token = .opens tag.name (inOrder tag.attributes) ∨ token = .closes tag.name) := by
  match node with
  | .text chars => exact Or.inl ⟨chars, List.mem_singleton.mp there⟩
  | .characterData _ | .comment _ | .declaration _ | .documentType _ | .instruction _ => cases there
  | .element tag children =>
      have own : Part.tag tag ∈ (Node.element tag children).parts := List.mem_cons_self
      rw [Node.tokens] at there
      rcases List.mem_append.mp there with front | back
      · rcases List.mem_cons.mp front with rfl | inside
        · exact Or.inr ⟨tag, own, Or.inl rfl⟩
        · refine (mem_tokensOf children inside).imp_right ?_
          rintro ⟨other, found, same⟩
          exact ⟨other, List.mem_cons_of_mem _ found, same⟩
      · split at back
        · cases back
        · exact Or.inr ⟨tag, own, Or.inr (List.mem_singleton.mp back)⟩

/-- The tokens of a tree are texts and the tags of its elements. -/
theorem mem_tokensOf (nodes : List Node) {token : LineToken} (there : token ∈ tokensOf nodes) :
    (∃ chars, token = .text chars) ∨ ∃ tag, .tag tag ∈ partsOf nodes ∧
      (token = .opens tag.name (inOrder tag.attributes) ∨ token = .closes tag.name) := by
  match nodes with
  | [] => cases there
  | node :: rest =>
      rw [tokensOf] at there
      rcases List.mem_append.mp there with first | others
      · refine (Node.mem_tokens node first).imp_right ?_
        rintro ⟨tag, found, same⟩
        exact ⟨tag, List.mem_append_left _ found, same⟩
      · refine (mem_tokensOf rest others).imp_right ?_
        rintro ⟨tag, found, same⟩
        exact ⟨tag, List.mem_append_right _ found, same⟩
end

mutual
theorem Node.chunks_eq (node : Node) (noData : ∀ chars, .leaf (.characterData chars) ∉ node.parts) :
    node.chunks = lineChunks writtenAttribute node.tokens := by
  match node with
  | .text chars => exact (List.append_nil _).symm
  | .characterData chars => exact absurd (List.mem_singleton.mpr rfl) (noData chars)
  | .element tag children =>
      have inside := chunksOf_eq children fun chars there =>
        noData chars (List.mem_cons_of_mem _ there)
      rw [Node.chunks, Node.tokens, inside, lineChunks, lineChunks, List.flatMap_append,
        List.flatMap_cons]
      split <;> rfl
  | .comment _ | .declaration _ | .documentType _ | .instruction _ => rfl

/-- A tree without character data is written as its tokens. -/
theorem chunksOf_eq (nodes : List Node)
    (noData : ∀ chars, .leaf (.characterData chars) ∉ partsOf nodes) :
    chunksOf nodes = lineChunks writtenAttribute (tokensOf nodes) := by
  match nodes with
  | [] => rfl
  | node :: rest =>
      rw [chunksOf, tokensOf, lineChunks, List.flatMap_append,
        Node.chunks_eq node fun chars there => noData chars (List.mem_append_left _ there),
        chunksOf_eq rest fun chars there => noData chars (List.mem_append_right _ there)]
      rfl
end

mutual
theorem Node.fits_tokens (node : Node) {open' finished : List String} {rest : List LineToken}
    (h : ∀ more, (∀ name, finished.count name ≤ more.count name) → Fits open' more rest) :
    Fits open' finished (node.tokens ++ rest) := by
  match node with
  | .text chars => exact h finished fun _ => Nat.le_refl _
  | .characterData _ | .comment _ | .declaration _ | .documentType _ | .instruction _ =>
      exact h finished fun _ => Nat.le_refl _
  | .element tag children =>
      rw [Node.tokens, List.append_assoc, List.cons_append, Fits]
      split
      · next empty =>
          refine fits_tokensOf children fun more fewer => ?_
          have fewer' : ∀ name, finished.count name + [tag.name].count name ≤ more.count name :=
            fun name => by simpa using fewer name
          split
          · exact h more fun name => Nat.le_trans (Nat.le_add_right _ _) (fewer' name)
          · -- the end tag takes back what the start tag has left
            simp only [List.singleton_append, Fits, if_pos empty]
            have own := fewer' tag.name
            rw [List.count_singleton_self] at own
            refine ⟨List.count_pos_iff.mp (by omega), h _ fun name => ?_⟩
            have left := fewer' name
            rw [List.count_singleton] at left
            rw [List.count_erase]
            exact Nat.le_sub_of_add_le left
      · next filled =>
          refine fits_tokensOf children fun more fewer => ?_
          have closed : ¬(children.isEmpty && emptyElements.contains tag.name) = true := by
            simp [filled]
          rw [if_neg closed]
          simp only [List.singleton_append, Fits, if_neg filled]
          exact ⟨open', rfl, h more fewer⟩

/-- The tags of a tree nest. -/
theorem fits_tokensOf (nodes : List Node) {open' finished : List String} {rest : List LineToken}
    (h : ∀ more, (∀ name, finished.count name ≤ more.count name) → Fits open' more rest) :
    Fits open' finished (tokensOf nodes ++ rest) := by
  match nodes with
  | [] => exact h finished fun _ => Nat.le_refl _
  | node :: others =>
      rw [tokensOf, List.append_assoc]
      refine Node.fits_tokens node fun more fewer => ?_
      exact fits_tokensOf others fun most fewer' =>
        h most fun name => Nat.le_trans (fewer name) (fewer' name)
end

/-! ## Texts next to each other -/

/-- A token in front of others, text in front of text as one and no text that is empty. -/
def LineToken.before : LineToken → List LineToken → List LineToken
  | .text chars, rest =>
    if chars.isEmpty then rest
    else match rest with
      | .text more :: others => .text (chars ++ more) :: others
      | _ => .text chars :: rest
  | token, rest => token :: rest

/-- A line with texts that stand next to each other as one. -/
def glued (tokens : List LineToken) : List LineToken := tokens.foldr LineToken.before []

/-- No text of a line is empty or stands next to another one. -/
def Apart : List LineToken → Prop
  | [] => True
  | .text chars :: rest => chars ≠ [] ∧ (∀ more, rest.head? ≠ some (.text more)) ∧ Apart rest
  | _ :: rest => Apart rest

/-- A text in front of a line is empty, joins the text that the line starts with, or stands for
itself. -/
theorem before_text_cases (chars : List Char) (rest : List LineToken) :
    (chars = [] ∧ (LineToken.text chars).before rest = rest) ∨
    (∃ more others, rest = .text more :: others ∧
      (LineToken.text chars).before rest = .text (chars ++ more) :: others) ∨
    (chars ≠ [] ∧ (∀ more, rest.head? ≠ some (.text more)) ∧
      (LineToken.text chars).before rest = .text chars :: rest) := by
  cases chars with
  | nil => exact Or.inl ⟨rfl, rfl⟩
  | cons c cs =>
      right
      cases rest with
      | nil => exact Or.inr ⟨List.cons_ne_nil _ _, by simp, rfl⟩
      | cons token others =>
          cases token with
          | text more => exact Or.inl ⟨more, others, rfl, rfl⟩
          | opens name attributes => exact Or.inr ⟨List.cons_ne_nil _ _, by simp, rfl⟩
          | closes name => exact Or.inr ⟨List.cons_ne_nil _ _, by simp, rfl⟩

theorem apart_before {token : LineToken} {rest : List LineToken} (h : Apart rest) :
    Apart (token.before rest) := by
  cases token with
  | text chars =>
      rcases before_text_cases chars rest with ⟨-, same⟩ | ⟨more, others, rfl, same⟩ |
        ⟨some, next, same⟩
      · rw [same]
        exact h
      · rw [same]
        obtain ⟨some, next, later⟩ := h
        exact ⟨by simp [some], next, later⟩
      · rw [same]
        exact ⟨some, next, h⟩
  | opens name attributes => exact h
  | closes name => exact h

theorem lineText_before (quote : Quoting) (token : LineToken) (rest : List LineToken) :
    lineText quote (token.before rest) = lineText quote (token :: rest) := by
  cases token with
  | text chars =>
      rcases before_text_cases chars rest with ⟨rfl, same⟩ | ⟨more, others, rfl, same⟩ |
        ⟨-, -, same⟩
      · rw [same, lineText_cons]
        rfl
      · rw [same, lineText_cons, lineText_cons, lineText_cons, LineToken.chunks, LineToken.chunks,
          LineToken.chunks, List.map_append, textOf_append, List.append_assoc]
      · rw [same]
  | opens name attributes => rfl
  | closes name => rfl

theorem fits_before {token : LineToken} {rest : List LineToken} {open' finished : List String} :
    Fits open' finished (token.before rest) ↔ Fits open' finished (token :: rest) := by
  cases token with
  | text chars =>
      rcases before_text_cases chars rest with ⟨-, same⟩ | ⟨more, others, rfl, same⟩ |
        ⟨-, -, same⟩ <;> rw [same]
      · exact Iff.rfl
      · exact Iff.rfl
  | opens name attributes => exact Iff.rfl
  | closes name => exact Iff.rfl

/-- What holds of every text and of the tags of a line holds of its tokens when texts are joined. -/
theorem forall_before {holds : LineToken → Prop} (texts : ∀ chars, holds (.text chars)) {token : LineToken}
    {rest : List LineToken} (own : holds token) (others : ∀ other ∈ rest, holds other) :
    ∀ other ∈ token.before rest, holds other := by
  cases token with
  | text chars =>
      rcases before_text_cases chars rest with ⟨-, same⟩ | ⟨more, later, rfl, same⟩ |
        ⟨-, -, same⟩ <;> rw [same]
      · exact others
      · exact List.forall_mem_cons.mpr ⟨texts _, (List.forall_mem_cons.mp others).2⟩
      · exact List.forall_mem_cons.mpr ⟨own, others⟩
  | opens name attributes => exact List.forall_mem_cons.mpr ⟨own, others⟩
  | closes name => exact List.forall_mem_cons.mpr ⟨own, others⟩

/-- A line whose texts are joined is the same line as it is written, and nests as it does. -/
theorem glued_spec (tokens : List LineToken) :
    Apart (glued tokens) ∧ (∀ quote, lineText quote (glued tokens) = lineText quote tokens) ∧
      (∀ open' finished, Fits open' finished tokens → Fits open' finished (glued tokens)) ∧
      ∀ {holds : LineToken → Prop}, (∀ chars, holds (.text chars)) → (∀ token ∈ tokens, holds token) →
        ∀ token ∈ glued tokens, holds token := by
  induction tokens with
  | nil => exact ⟨trivial, fun _ => rfl, fun _ _ => id, fun _ _ => nofun⟩
  | cons token rest ih =>
      obtain ⟨apart, same, fits, all⟩ := ih
      refine ⟨apart_before apart, fun quote => ?_, fun open' finished h => ?_, fun texts h => ?_⟩
      · refine (lineText_before quote token (glued rest)).trans ?_
        rw [lineText_cons, lineText_cons, same]
      · refine fits_before.mpr ?_
        cases token with
        | text chars => exact fits open' finished h
        | opens name attributes =>
            simp only [Fits] at h ⊢
            split
            · next empty => exact fits _ _ (by rwa [if_pos empty] at h)
            · next filled => exact fits _ _ (by rwa [if_neg filled] at h)
        | closes name =>
            simp only [Fits] at h ⊢
            split
            · next empty =>
                rw [if_pos empty] at h
                exact ⟨h.1, fits _ _ h.2⟩
            · next filled =>
                rw [if_neg filled] at h
                obtain ⟨outer, same, inside⟩ := h
                exact ⟨outer, same, fits _ _ inside⟩
      · rw [List.forall_mem_cons] at h
        exact forall_before texts h.1 (all texts h.2)

end MessageCatalog.Markup
