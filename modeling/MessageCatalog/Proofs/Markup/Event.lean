import MessageCatalog.Proofs.Markup.Chunk

/-!
# MessageCatalog.Proofs.Markup.Event -- what every event of a page is like

Whatever a page is, a start tag stands where a bracket stands before a letter and another one closes
it, the names of tags and attributes have been put in small letters, and no section goes on past its
end. It is shown for each construct, then for a pass, then for a page.
-/

namespace MessageCatalog.Markup

open MessageCatalog.Text

/-- A text starts with an opening bracket and a letter, and has a closing bracket behind them. -/
def OpensTag (text : List Char) : Prop :=
  ∃ c rest, text = '<' :: c :: rest ∧ isAsciiLetter c = true ∧ '>' ∈ rest

/-- An event that is read at the start of a text: a start tag starts as one, names are in small
letters, and a section does not hold its end. -/
def Event.Sound (text : List Char) : Event → Prop
  | .startTag name attributes _ => OpensTag text ∧
    (∃ written, name = nameOf written) ∧ ∀ a ∈ attributes, ∃ written, a.name = nameOf written
  | .marked text => ∀ i, startsSectionEnd 2 (text.drop i) = false
  | _ => True

/-- The event that a construct comes to, if there is one, is sound. -/
def Outcome.Sound (text : List Char) : Outcome → Prop
  | .event _ (some e) _ => e.Sound text
  | _ => True

theorem Outcome.sound_upTo {text rest : List Char} {event : Event} {mode : Mode}
    (h : event.Sound text) : (Outcome.upTo text rest (some event) mode).Sound text := h

theorem Outcome.sound_dataUpTo (text rest : List Char) (mode : Mode) :
    (Outcome.dataUpTo text rest mode).Sound text := trivial

theorem unfinished_sound (final : Bool) (text : List Char) :
    (unfinished final text).Sound text := by
  unfold unfinished
  split
  · dsimp only
    split
    · exact Outcome.sound_dataUpTo _ _ _
    · split <;> exact Outcome.sound_dataUpTo _ _ _
  · trivial

/-! ## What is left of a start tag -/

theorem skipSeparators_suffix (text : List Char) : skipSeparators text <:+ text := by
  fun_induction skipSeparators text with
  | case1 => exact List.suffix_refl _
  | case2 rest => exact List.suffix_refl _
  | case3 rest goes ih => exact ih.trans (List.suffix_cons _ _)
  | case4 c rest slash blank ih => exact ih.trans (List.suffix_cons _ _)
  | case5 c rest slash blank => exact List.suffix_refl _

theorem closeQuote_suffix {quote : Char} {text inside rest : List Char}
    (h : closeQuote quote text = some (inside, rest)) : rest <:+ text := by
  rw [closeQuote] at h
  split at h
  · cases h
  · next closing behind found =>
      cases h
      exact (List.suffix_cons _ _).trans (found ▸ List.dropWhile_suffix _)

theorem readValue_suffix {text value rest : List Char}
    (h : readValue text = some (value, rest)) : rest <:+ text := by
  have signs : text.dropWhile isBlank <:+ text := List.dropWhile_suffix _
  rw [readValue] at h
  dsimp only at h
  generalize text.dropWhile isBlank = start at h signs
  have spaced : start.dropWhile (· == '=') <:+ text := (List.dropWhile_suffix _).trans signs
  generalize start.dropWhile (· == '=') = behind at h spaced
  have blanks : behind.dropWhile isBlank <:+ text := (List.dropWhile_suffix _).trans spaced
  generalize behind.dropWhile isBlank = written at h blanks
  split at h
  · split at h
    · cases h
      exact List.nil_suffix
    · next c cs =>
        split at h
        · split at h
          · next closed =>
              cases h
              exact (closeQuote_suffix closed).trans ((List.suffix_cons c cs).trans blanks)
          split at h
          · cases h
            exact blanks
          split at h
          · -- the last equals sign belongs to the value
            have bare : ('=' :: behind).dropWhile isBareCharacter =
                behind.dropWhile isBareCharacter := List.dropWhile_cons_of_pos rfl
            rw [bareValue, bare] at h
            cases h
            exact (List.dropWhile_suffix _).trans spaced
          · cases h
        · cases h
          exact (List.dropWhile_suffix _).trans blanks
  · cases h

theorem readAttribute_suffix {before : Char} {text rest : List Char} {a : Attribute}
    (h : readAttribute before text = some (a, rest)) : rest <:+ text := by
  cases text with
  | nil => cases h
  | cons c cs =>
      have name : cs.dropWhile continuesAttribute <:+ c :: cs :=
        (List.dropWhile_suffix _).trans (List.suffix_cons c cs)
      rw [readAttribute] at h
      split at h
      · dsimp only at h
        split at h
        · next value =>
            cases h
            exact (skipSeparators_suffix _).trans ((readValue_suffix value).trans name)
        · cases h
          exact (skipSeparators_suffix _).trans name
      · cases h

theorem readAttributes_suffix (fuel : Nat) (before : Char) (text : List Char) :
    (readAttributes fuel before text).2 <:+ text := by
  fun_induction readAttributes fuel before text with
  | case1 before text => exact List.suffix_refl _
  | case2 before text fuel none => exact List.suffix_refl _
  | case3 before text fuel first rest read others rest' later ih =>
      rw [later] at ih
      exact ih.trans (readAttribute_suffix read)

/-- A closing bracket ends a start tag. -/
theorem readStartTag_closed {text rest : List Char} {name : String} {attributes : List Attribute}
    {selfClosing : Bool} (h : readStartTag text = .complete name attributes selfClosing rest) :
    '>' ∈ text := by
  have separated : skipSeparators (text.dropWhile isTagNameCharacter) <:+ text :=
    (skipSeparators_suffix _).trans (List.dropWhile_suffix _)
  rw [readStartTag] at h
  dsimp only at h
  split at h
  · next closed =>
      have left : '>' :: _ <:+ text := closed ▸ (readAttributes_suffix _ _ _).trans separated
      exact left.subset List.mem_cons_self
  · next closed =>
      have left : '/' :: '>' :: _ <:+ text := closed ▸ (readAttributes_suffix _ _ _).trans separated
      exact left.subset (List.mem_cons_of_mem _ List.mem_cons_self)
  · cases h
  · split at h <;> cases h

/-! ## Start tags -/

theorem readAttribute_sound {before : Char} {text rest : List Char} {a : Attribute}
    (h : readAttribute before text = some (a, rest)) : ∃ written, a.name = nameOf written := by
  cases text with
  | nil => cases h
  | cons c cs =>
      rw [readAttribute] at h
      split at h
      · dsimp only at h
        split at h <;> cases h <;> exact ⟨_, rfl⟩
      · cases h

theorem readAttributes_sound {fuel : Nat} {before : Char} {text : List Char} :
    ∀ a ∈ (readAttributes fuel before text).1, ∃ written, a.name = nameOf written := by
  induction fuel generalizing before text with
  | zero => simp [readAttributes]
  | succ fuel ih =>
      intro a there
      rw [readAttributes] at there
      split at there
      · cases there
      · next first rest read =>
          rcases List.mem_cons.mp there with rfl | later
          · exact readAttribute_sound read
          · exact ih a later

theorem readStartTag_sound {text rest : List Char} {name : String} {attributes : List Attribute}
    {selfClosing : Bool} (h : readStartTag text = .complete name attributes selfClosing rest) :
    (∃ written, name = nameOf written) ∧ ∀ a ∈ attributes, ∃ written, a.name = nameOf written := by
  rw [readStartTag] at h
  dsimp only at h
  split at h
  · cases h
    exact ⟨⟨_, rfl⟩, readAttributes_sound⟩
  · cases h
    exact ⟨⟨_, rfl⟩, readAttributes_sound⟩
  · cases h
  · split at h <;> cases h

theorem readOpening_sound (final : Bool) {c : Char} (letter : isAsciiLetter c = true)
    (rest : List Char) : (readOpening final ('<' :: c :: rest)).Sound ('<' :: c :: rest) := by
  rw [readOpening]
  split
  · next read =>
      have other : '>' ≠ c := by
        rintro rfl
        cases letter
      have closed := List.mem_of_ne_of_mem other (readStartTag_closed read)
      exact Outcome.sound_upTo ⟨⟨c, rest, rfl, letter, closed⟩, readStartTag_sound read⟩
  · exact unfinished_sound _ _
  · exact Outcome.sound_dataUpTo _ _ _

/-! ## Sections -/

/-- An end with two brackets holds an end with one. -/
theorem startsSectionEnd_two {text : List Char}
    (h : ∀ i, startsSectionEnd 1 (text.drop i) = false) (i : Nat) :
    startsSectionEnd 2 (text.drop i) = false := by
  cases there : text.drop i with
  | nil => rfl
  | cons c rest =>
      have tail : rest.dropWhile isBlank <:+ text :=
        (List.dropWhile_suffix _).trans ((List.suffix_cons c rest).trans
          (there ▸ List.drop_suffix i text))
      rw [startsSectionEnd_cons, List.suffix_iff_eq_drop.mp tail, h, Bool.and_false]

/-- What is enclosed by an end that lasts when more follows does not hold one. -/
theorem enclosed?_eq_some {stop : List Char → Bool} {text content rest : List Char}
    (lasts : ∀ front, stop front = true → ∀ more, stop (front ++ more) = true)
    (none : stop [] = false) (h : enclosed? stop text = some (content, rest)) (i : Nat) :
    stop (content.drop i) = false := by
  obtain ⟨⟨before, after⟩, broken, same⟩ := Option.map_eq_some_iff.mp h
  cases same
  obtain ⟨rfl, goes⟩ := breakWhere_eq_some broken
  by_cases less : i < content.length
  · have here := goes i less
    rw [List.drop_append_of_le_length (Nat.le_of_lt less)] at here
    rw [← Bool.not_eq_true] at here ⊢
    exact fun ends => here (lasts _ ends _)
  · rw [List.drop_of_length_le (Nat.le_of_not_lt less), none]

theorem enclosed?_sectionEnd {brackets : Nat} {inside content rest : List Char}
    (h : enclosed? (startsSectionEnd brackets) inside = some (content, rest)) (i : Nat) :
    startsSectionEnd brackets (content.drop i) = false := by
  have none : startsSectionEnd brackets [] = false := by cases brackets <;> rfl
  have lasts : ∀ front, startsSectionEnd brackets front = true →
      ∀ more, startsSectionEnd brackets (front ++ more) = true :=
    fun _ ends more => startsSectionEnd_append ends more
  exact enclosed?_eq_some lasts none h i

theorem readSection_sound (final : Bool) (text : List Char) :
    (readSection final text).Sound text := by
  unfold readSection
  dsimp only
  split
  · exact unfinished_sound _ _
  split
  · split
    · exact unfinished_sound _ _
    split
    · trivial
    next count brackets =>
      split
      · exact unfinished_sound _ _
      next content rest read =>
        have ends := enclosed?_sectionEnd read
        refine Outcome.sound_upTo ?_
        -- the number of brackets is the one of the kind of the section
        split at brackets
        · cases brackets
          exact ends
        split at brackets
        · cases brackets
          exact startsSectionEnd_two ends
        · cases brackets
  · trivial

/-! ## Any construct -/

theorem readDeclaration_sound (final : Bool) (text : List Char) :
    (readDeclaration final text).Sound text := by
  unfold readDeclaration
  dsimp only
  split
  · exact readSection_sound _ _
  split
  · split
    · exact unfinished_sound _ _
    · trivial
  · split
    · exact unfinished_sound _ _
    · trivial

theorem readClosing_sound (final : Bool) (text : List Char) : (readClosing final text).Sound text := by
  unfold readClosing
  dsimp only
  split
  · exact unfinished_sound _ _
  split
  · trivial
  split
  · exact unfinished_sound _ _
  split
  · trivial
  split <;> trivial

theorem readRawClosing_sound (element : String) (text : List Char) :
    (readRawClosing element text).Sound text := by
  unfold readRawClosing
  split
  · split <;> trivial
  · trivial

theorem readBracket_sound (final : Bool) (text : List Char) :
    (readBracket final ('<' :: text)).Sound ('<' :: text) := by
  rw [readBracket, List.drop_succ_cons, List.drop_zero]
  cases text with
  | nil => trivial
  | cons c rest =>
      dsimp only
      split
      · next letter => exact readOpening_sound _ letter rest
      split
      · exact readClosing_sound _ _
      split
      · split
        · exact unfinished_sound _ _
        · trivial
      split
      · split
        · exact unfinished_sound _ _
        · trivial
      split
      · exact readDeclaration_sound _ _
      · trivial

theorem readAmpersand_sound (final : Bool) (text : List Char) :
    (readAmpersand final text).Sound text := by
  unfold readAmpersand
  split
  · trivial
  · split
    · trivial
    · split <;> trivial
  · split
    · trivial
    split
    · split <;> trivial
    · trivial

theorem readPiece_sound (final : Bool) (mode : Mode) (text : List Char) :
    (readPiece final mode text).Sound text := by
  unfold readPiece
  split
  · split
    · exact readBracket_sound _ _
    · exact readAmpersand_sound _ _
    · exact Outcome.sound_dataUpTo _ _ _
  · split
    · trivial
    · exact readRawClosing_sound _ _
    · exact Outcome.sound_dataUpTo _ _ _

/-! ## A whole page -/

/-- The text where an event was read is the end of the text that is read. -/
def SoundIn (text : List Char) (located : Located) : Prop :=
  ∃ behind, behind <:+ text ∧ located.event.Sound behind

theorem SoundIn.mono {text whole : List Char} {located : Located} (h : SoundIn text located)
    (suffix : text <:+ whole) : SoundIn whole located := by
  obtain ⟨behind, inside, sound⟩ := h
  exact ⟨behind, inside.trans suffix, sound⟩

theorem soundIn_data (whole : List Char) (offset : Nat) (text : List Char) :
    SoundIn whole ⟨offset, .data text⟩ := ⟨whole, List.suffix_refl whole, trivial⟩

theorem pass_sound (final : Bool) (mode : Mode) (offset : Nat) (text : List Char) :
    (∀ located ∈ (pass final mode offset text).events, SoundIn text located) ∧
      (pass final mode offset text).rest <:+ text := by
  fun_induction pass final mode offset text with
  | case1 mode offset => simp
  | case2 mode offset c cs size event mode' read ih =>
      have own := readPiece_sound final mode (c :: cs)
      have suffix : cs.drop size <:+ c :: cs := (List.drop_suffix size cs).trans (List.suffix_cons c cs)
      rw [read] at own
      -- what is read later stands in an end of this text
      have later : ∀ located ∈ (pass final mode' (offset + size + 1) (cs.drop size)).events,
          SoundIn (c :: cs) located := fun located there => (ih.1 located there).mono suffix
      cases event with
      | none => exact ⟨later, ih.2.trans suffix⟩
      | some event =>
          refine ⟨List.forall_mem_cons.mpr ⟨?_, later⟩, ih.2.trans suffix⟩
          exact ⟨c :: cs, List.suffix_refl _, own⟩
  | case3 mode offset c cs taken read =>
      refine ⟨?_, List.drop_suffix _ _⟩
      intro located there
      split at there
      · cases there
      · rw [List.mem_singleton.mp there]
        exact soundIn_data _ _ _
  | case4 mode offset c cs read => simp
  | case5 mode offset c cs distance why read => simp

/-- Every event of a page is sound. -/
theorem tokenize_sound (text : List Char) :
    ∀ located ∈ (tokenize text).events, SoundIn text located := by
  intro located there
  obtain ⟨first, suffix⟩ := pass_sound false .markup 0 text
  unfold tokenize at there
  dsimp only at there
  split at there
  · exact first located there
  · -- the first pass, the second one, or what both leave
    rcases List.mem_append.mp there with read | left
    · rcases List.mem_append.mp read with early | late
      · exact first located early
      · exact ((pass_sound _ _ _ _).1 located late).mono suffix
    · unfold PassResult.remainder at left
      split at left
      · rw [List.mem_singleton.mp left]
        exact soundIn_data _ _ _
      · cases left

end MessageCatalog.Markup
