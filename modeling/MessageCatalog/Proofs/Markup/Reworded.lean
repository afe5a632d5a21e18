import MessageCatalog.Proofs.Markup.Rebuilt

/-!
# MessageCatalog.Proofs.Markup.Reworded -- lines in other words

Both the tree and the minifier turn a line of tokens into the line in other words. End tags of
elements without content are gone from it, so that the texts around them become one, and its texts
are worded anew. All else that is known of a line stays as it is, and where the wording leaves every
text of a line alone, the line is the same.
-/

namespace MessageCatalog.Markup

open MessageCatalog.Text

/-! ## Lines in other words -/

/-- The elements that are open behind a token. -/
def entered (open' : List String) : LineToken → List String
  | .text _ => open'
  | .opens name _ => if name ∈ emptyElements then open' else name :: open'
  | .closes name => if name ∈ emptyElements then open' else open'.tail

/-- A line nests in the elements that are open behind its first token when it is read from there. -/
theorem Fits.entered {open' finished : List String} {token : LineToken} {rest : List LineToken}
    (h : Fits open' finished (token :: rest)) :
    ∃ after, Fits (Markup.entered open' token) after rest := by
  cases token with
  | text chars => exact ⟨finished, h⟩
  | opens name attributes =>
      rw [Markup.entered]
      simp only [Fits] at h
      split at h
      · next empty => exact ⟨_, by rwa [if_pos empty]⟩
      · next filled => exact ⟨_, by rwa [if_neg filled]⟩
  | closes name =>
      rw [Markup.entered]
      simp only [Fits] at h
      split at h
      · next empty =>
          rw [if_pos empty]
          exact ⟨_, h.2⟩
      · next filled =>
          obtain ⟨outer, rfl, nests⟩ := h
          rw [if_neg filled]
          exact ⟨finished, nests⟩

theorem Apart.tail {token : LineToken} {rest : List LineToken} (h : Apart (token :: rest)) : Apart rest := by
  cases token with
  | text chars => exact h.2.2
  | opens name attributes => exact h
  | closes name => exact h

/-- A token that is not the end tag of an element without content. -/
def LineToken.Lasting (token : LineToken) : Prop := ∀ name ∈ emptyElements, token ≠ .closes name

/-- A way to word texts anew, given the open elements and the tokens on both sides. -/
abbrev Wording := (open' : List String) → (previous next : Option LineToken) → List Char → List Char

/-- A line with its texts worded anew, without the end tags of elements without content. Texts that
come to stand next to each other become one. -/
def reworded (wording : Wording) : (open' : List String) → (previous : Option LineToken) →
    List LineToken → List LineToken
  | _, _, [] => []
  | open', previous, token :: rest =>
    let others := reworded wording (entered open' token) (some token) rest
    match token with
    | .text chars => (LineToken.text (wording open' previous rest.head? chars)).before others
    | .opens _ _ => token :: others
    | .closes name => if name ∈ emptyElements then others else token :: others

variable {wording : Wording} {open' : List String} {previous : Option LineToken}

theorem reworded_text (chars : List Char) (rest : List LineToken) :
    reworded wording open' previous (.text chars :: rest) =
      (LineToken.text (wording open' previous rest.head? chars)).before
        (reworded wording open' (some (.text chars)) rest) := rfl

theorem reworded_opens (name : String) (attributes : List (String × List Char))
    (rest : List LineToken) :
    reworded wording open' previous (.opens name attributes :: rest) =
      .opens name attributes ::
        reworded wording (entered open' (.opens name attributes)) (some (.opens name attributes))
          rest := rfl

theorem reworded_closes {name : String} (filled : name ∉ emptyElements) (rest : List LineToken) :
    reworded wording open' previous (.closes name :: rest) =
      .closes name :: reworded wording open'.tail (some (.closes name)) rest := by
  rw [reworded, entered, if_neg filled, if_neg filled]

theorem reworded_closesEmpty {name : String} (empty : name ∈ emptyElements) (rest : List LineToken) :
    reworded wording open' previous (.closes name :: rest) =
      reworded wording open' (some (.closes name)) rest := by
  rw [reworded, entered, if_pos empty, if_pos empty]

/-- What a line in other words is like: its texts stand apart, no element without content is closed,
its tags nest, and its tags are those of the line. -/
theorem reworded_spec (wording : Wording) {tokens : List LineToken} {finished : List String}
    (fits : Fits open' finished tokens) (previous : Option LineToken) :
    Apart (reworded wording open' previous tokens) ∧
      (∀ token ∈ reworded wording open' previous tokens, token.Lasting) ∧
      (∀ finished', Fits open' finished' (reworded wording open' previous tokens)) ∧
      ∀ {holds : LineToken → Prop}, (∀ chars, holds (.text chars)) → (∀ token ∈ tokens, holds token) →
        ∀ token ∈ reworded wording open' previous tokens, holds token := by
  induction tokens generalizing open' previous finished with
  | nil => exact ⟨trivial, nofun, fun _ => fits, fun _ _ => nofun⟩
  | cons token rest ih =>
      cases token with
      | text chars =>
          obtain ⟨apart, lasting, nests, all⟩ := ih fits (some (.text chars))
          rw [reworded_text]
          refine ⟨apart_before apart, forall_before ?_ ?_ lasting,
            fun finished' => fits_before.mpr (nests finished'), fun texts own => ?_⟩
          · exact fun _ _ _ => nofun
          · exact fun _ _ => nofun
          · rw [List.forall_mem_cons] at own
            exact forall_before texts (texts _) (all texts own.2)
      | opens name attributes =>
          rw [reworded_opens]
          obtain ⟨after, nested⟩ := fits.entered
          obtain ⟨apart, lasting, nests, all⟩ := ih nested (some (.opens name attributes))
          refine ⟨apart, List.forall_mem_cons.mpr ⟨fun _ _ => nofun, lasting⟩, fun finished' => ?_,
            fun texts own => ?_⟩
          · rw [Fits]
            split
            · next empty => simpa only [entered, if_pos empty] using nests (finished' ++ [name])
            · next filled => simpa only [entered, if_neg filled] using nests finished'
          · rw [List.forall_mem_cons] at own
            exact List.forall_mem_cons.mpr ⟨own.1, all texts own.2⟩
      | closes name =>
          simp only [Fits] at fits
          by_cases empty : name ∈ emptyElements
          · -- the end tag is left out, which is why any finished elements will do
            rw [if_pos empty] at fits
            obtain ⟨apart, lasting, nests, all⟩ := ih fits.2 (some (.closes name))
            rw [reworded_closesEmpty empty]
            exact ⟨apart, lasting, nests, fun texts own =>
              all texts fun token there => own token (List.mem_cons_of_mem _ there)⟩
          · rw [if_neg empty] at fits
            obtain ⟨outer, rfl, inside⟩ := fits
            obtain ⟨apart, lasting, nests, all⟩ := ih inside (some (.closes name))
            rw [reworded_closes empty]
            refine ⟨apart, List.forall_mem_cons.mpr ⟨?_, lasting⟩, fun finished' => ?_,
              fun texts own => ?_⟩
            · rintro other isEmpty same
              cases same
              exact empty isEmpty
            · simp only [Fits, if_neg empty]
              exact ⟨outer, rfl, nests finished'⟩
            · rw [List.forall_mem_cons] at own
              exact List.forall_mem_cons.mpr ⟨own.1, all texts own.2⟩

/-- A text stands for itself in front of a line that starts with no text. -/
theorem before_of_apart {chars : List Char} {rest : List LineToken} (some' : chars ≠ [])
    (alone : ∀ more, rest.head? ≠ some (.text more)) :
    (LineToken.text chars).before rest = .text chars :: rest := by
  rcases before_text_cases chars rest with ⟨none, -⟩ | ⟨more, others, rfl, -⟩ | ⟨-, -, same⟩
  · exact absurd none some'
  · exact absurd rfl (alone more)
  · exact same

/-- A line that starts with no text, and closes no element without content, starts with no text in
other words. -/
theorem head?_reworded (wording : Wording) (open' : List String) (previous : Option LineToken)
    {tokens : List LineToken} (alone : ∀ more, tokens.head? ≠ some (.text more))
    (lasting : ∀ token ∈ tokens, token.Lasting) :
    (reworded wording open' previous tokens).head? = tokens.head? := by
  cases tokens with
  | nil => rfl
  | cons token rest =>
      cases token with
      | text chars => exact absurd rfl (alone chars)
      | opens name attributes => rfl
      | closes name =>
          have filled : name ∉ emptyElements := fun empty =>
            lasting _ List.mem_cons_self name empty rfl
          rw [reworded_closes filled]
          rfl

/-- The tags of a line that last are in it in other words. -/
theorem mem_reworded (wording : Wording) (open' : List String) (previous : Option LineToken)
    {token : LineToken} (isTag : ∀ chars, token ≠ .text chars) (lasting : token.Lasting)
    {tokens : List LineToken} (there : token ∈ tokens) :
    token ∈ reworded wording open' previous tokens := by
  induction tokens generalizing open' previous with
  | nil => cases there
  | cons first rest ih =>
      cases first with
      | text chars =>
          have later := ih open' (some (.text chars))
            ((List.mem_cons.mp there).resolve_left (isTag chars))
          rw [reworded_text]
          -- a text that is joined to the one behind it takes no tag away
          rcases before_text_cases (wording open' previous rest.head? chars)
            (reworded wording open' (some (.text chars)) rest) with
            ⟨-, same⟩ | ⟨more, others, split, same⟩ | ⟨-, -, same⟩
          · rwa [same]
          · rw [split] at later
            rw [same]
            exact List.mem_cons_of_mem _ ((List.mem_cons.mp later).resolve_left (isTag more))
          · rw [same]
            exact List.mem_cons_of_mem _ later
      | opens name attributes =>
          rw [reworded_opens]
          exact (List.mem_cons.mp there).elim (fun own => own ▸ List.mem_cons_self)
            fun later => List.mem_cons_of_mem _ (ih _ _ later)
      | closes name =>
          by_cases empty : name ∈ emptyElements
          · rw [reworded_closesEmpty empty]
            exact ih _ _ ((List.mem_cons.mp there).resolve_left (lasting name empty))
          · rw [reworded_closes empty]
            exact (List.mem_cons.mp there).elim (fun own => own ▸ List.mem_cons_self)
              fun later => List.mem_cons_of_mem _ (ih _ _ later)

/-! ## What the tree makes of a line -/

/-- Text as it is. -/
def keeping : Wording := fun _ _ _ chars => chars

/-- Text as the tree keeps it. -/
def settling : Wording := fun open' _ _ chars => settledIn open' chars

theorem rewritten_before (open' : List String) (pending chars : List Char) (rest : List LineToken) :
    rewritten open' pending ((LineToken.text chars).before rest) =
      rewritten open' (pending ++ chars) rest := by
  rcases before_text_cases chars rest with ⟨rfl, same⟩ | ⟨more, others, rfl, same⟩ | ⟨-, -, same⟩
  · rw [same, List.append_nil]
  · rw [same, rewritten, rewritten, List.append_assoc]
  · rw [same, rewritten]

/-- The end tags of elements without content make no difference to the tree. -/
theorem rewritten_keeping (tokens : List LineToken) (open' : List String) (previous : Option LineToken)
    (pending : List Char) :
    rewritten open' pending (reworded keeping open' previous tokens) =
      rewritten open' pending tokens := by
  induction tokens generalizing open' previous pending with
  | nil => rfl
  | cons token rest ih =>
      cases token with
      | text chars =>
          rw [reworded_text, rewritten_before, ih, rewritten]
          rfl
      | opens name attributes => rw [reworded_opens, rewritten, rewritten, entered, ih]
      | closes name =>
          by_cases empty : name ∈ emptyElements
          · rw [reworded_closesEmpty empty, ih, rewritten, if_pos empty]
          · rw [reworded_closes empty, rewritten, if_neg empty, ih, rewritten, if_neg empty]

/-- Text that is held back is written in front of a line that starts with no text. -/
theorem rewritten_pending {tokens : List LineToken} (alone : ∀ more, tokens.head? ≠ some (.text more))
    (lasting : ∀ token ∈ tokens, token.Lasting) (open' : List String) (pending : List Char) :
    rewritten open' pending tokens =
      escapeText (settledIn open' pending) ++ rewritten open' [] tokens := by
  have none : escapeText (settledIn open' []) = [] := rfl
  cases tokens with
  | nil => rw [rewritten, rewritten, none, List.append_nil]
  | cons token rest =>
      cases token with
      | text chars => exact absurd rfl (alone chars)
      | opens name attributes =>
          rw [rewritten, rewritten, none, List.nil_append, List.append_assoc]
      | closes name =>
          have filled : name ∉ emptyElements := fun empty =>
            lasting _ List.mem_cons_self name empty rfl
          rw [rewritten, rewritten, if_neg filled, if_neg filled, none, List.nil_append,
            List.append_assoc]

/-- A line is rewritten as the line with its texts as the tree keeps them. -/
theorem rewritten_settling {tokens : List LineToken} (apart : Apart tokens)
    (lasting : ∀ token ∈ tokens, token.Lasting) (open' : List String) (previous : Option LineToken) :
    rewritten open' [] tokens =
      lineText writtenAttribute (reworded settling open' previous tokens) := by
  induction tokens generalizing open' previous with
  | nil => rfl
  | cons token rest ih =>
      rw [List.forall_mem_cons] at lasting
      obtain ⟨own, others⟩ := lasting
      cases token with
      | text chars =>
          obtain ⟨-, alone, later⟩ := apart
          rw [reworded_text, lineText_before, lineText_cons, rewritten, List.nil_append,
            rewritten_pending alone others, ih later others open' (some (.text chars))]
          exact congrArg (· ++ _) (escapeText_eq _)
      | opens name attributes =>
          rw [reworded_opens, lineText_cons, rewritten, settledIn_nil, ih apart others]
          rfl
      | closes name =>
          have filled : name ∉ emptyElements := fun empty => own name empty rfl
          rw [reworded_closes filled, lineText_cons, rewritten, if_neg filled, settledIn_nil,
            ih apart others]
          rfl

end MessageCatalog.Markup
