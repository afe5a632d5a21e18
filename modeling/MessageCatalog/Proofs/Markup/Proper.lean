import MessageCatalog.Proofs.Markup.Construct

/-!
# MessageCatalog.Proofs.Markup.Proper -- constructs are read as what can be written again

Whatever text is read, the event of a construct is proper: its names are names in small letters, its
text ends where such a text ends, and data is never empty. The mode behind it follows from the
event. It is shown for each reader.
-/

namespace MessageCatalog.Markup

open MessageCatalog.Text

/-- The event that a construct comes to, if there is one, is proper, and the mode that follows is
the one behind it. -/
def Outcome.Proper : Outcome → Prop
  | .event _ (some e) mode => e.Proper ∧ mode = e.mode
  | .event _ none mode => mode = .markup
  | _ => True

theorem Outcome.proper_dataUpTo {text rest : List Char} (less : rest.length < text.length) :
    (Outcome.dataUpTo text rest .markup).Proper := by
  refine ⟨?_, rfl⟩
  intro none
  have size := congrArg List.length none
  rw [List.length_take, List.length_nil] at size
  omega

theorem unfinished_proper (final : Bool) {text : List Char} (some : text ≠ []) :
    (unfinished final text).Proper := by
  obtain ⟨c, rest, rfl⟩ := List.exists_cons_of_ne_nil some
  unfold unfinished
  split
  · dsimp only
    rw [List.drop_succ_cons, List.drop_zero]
    split
    · next d after found =>
        have suffix : d :: after <:+ rest := found ▸ List.dropWhile_suffix _
        have size := suffix.length_le
        refine Outcome.proper_dataUpTo ?_
        rw [List.length_cons] at size ⊢
        omega
    · split
      · exact Outcome.proper_dataUpTo (Nat.lt_succ_self _)
      · have size := (List.dropWhile_suffix (l := rest) (· != '<')).length_le
        exact Outcome.proper_dataUpTo (Nat.lt_succ_of_le size)
  · exact True.intro

/-! ## Where a text is broken -/

/-- What stands in front of a closing bracket has none. -/
theorem upToBracket?_eq_some {text content rest : List Char}
    (h : upToBracket? text = some (content, rest)) :
    text = content ++ '>' :: rest ∧ '>' ∉ content := by
  obtain ⟨⟨before, after⟩, broken, same⟩ := Option.map_eq_some_iff.mp h
  cases same
  obtain ⟨rfl, goes⟩ := breakWhere_eq_some broken
  obtain ⟨behind, rfl⟩ := startsWith_iff.mp (breakWhere_stops broken)
  refine ⟨rfl, fun there => ?_⟩
  obtain ⟨front, back, rfl⟩ := List.append_of_mem there
  have none := goes front.length (by simp)
  rw [List.append_assoc, List.drop_left] at none
  cases none

/-- What ends a comment has a closing bracket. -/
theorem bracket_mem_of_startsCommentEnd {text : List Char} (h : startsCommentEnd text = true) :
    '>' ∈ text := by
  match text with
  | [] | [c] => simp [startsCommentEnd, after?] at h
  | c :: d :: text =>
      rw [startsCommentEnd_cons, Bool.and_eq_true, beq_iff_eq] at h
      have there : '>' ∈ text.dropWhile isBlank := List.mem_of_mem_head? h.2
      have inside := (List.dropWhile_suffix _).subset there
      exact List.mem_cons_of_mem _ (List.mem_cons_of_mem _ inside)

/-- A text without a closing bracket is the text of a comment. -/
theorem properComment_of_notMem {text : List Char} (h : '>' ∉ text) :
    (Event.comment text).Proper := by
  intro i
  rw [← Bool.not_eq_true]
  exact fun ends => h (List.mem_of_mem_drop (bracket_mem_of_startsCommentEnd ends))

/-! ## Tags -/

theorem readAttribute_proper {before : Char} {text rest : List Char} {a : Attribute}
    (h : readAttribute before text = some (a, rest)) : a.Proper := by
  cases text with
  | nil => cases h
  | cons c cs =>
      rw [readAttribute] at h
      split at h
      · next may =>
          rw [Bool.and_eq_true] at may
          have own := fun value => proper_nameOf may.2
            (fun d there => List.mem_takeWhile_imp there : ∀ d ∈ cs.takeWhile continuesAttribute, _)
            value
          dsimp only at h
          split at h <;> cases h <;> exact own _
      · cases h

theorem readAttributes_proper (fuel : Nat) (before : Char) (text : List Char) :
    ∀ a ∈ (readAttributes fuel before text).1, a.Proper := by
  fun_induction readAttributes fuel before text with
  | case1 before text => simp
  | case2 before text fuel none => simp
  | case3 before text fuel first rest read others rest' later ih =>
      rw [later] at ih
      exact List.forall_mem_cons.mpr ⟨readAttribute_proper read, ih⟩

/-- A letter and the characters of a name that follow it are a name. -/
theorem isTagName_takeWhile {c : Char} (letter : isAsciiLetter c = true) (rest : List Char) :
    IsTagName (nameOf ((c :: rest).takeWhile isTagNameCharacter)) := by
  have first := (isAsciiAlphanumeric_name (isAsciiLetter_alphanumeric letter)).2.1
  rw [List.takeWhile_cons_of_pos first]
  exact isTagName_nameOf letter fun d there => List.mem_takeWhile_imp there

theorem readStartTag_complete {c : Char} (letter : isAsciiLetter c = true) {text rest : List Char}
    {name : String} {attributes : List Attribute} {selfClosing : Bool}
    (h : readStartTag (c :: text) = .complete name attributes selfClosing rest) :
    IsTagName name ∧ ∀ a ∈ attributes, a.Proper := by
  have isName := isTagName_takeWhile letter text
  rw [readStartTag] at h
  dsimp only at h
  split at h
  · cases h
    exact ⟨isName, readAttributes_proper _ _ _⟩
  · cases h
    exact ⟨isName, readAttributes_proper _ _ _⟩
  · cases h
  · split at h <;> cases h

theorem readStartTag_malformed {text rest : List Char} (h : readStartTag text = .malformed rest) :
    rest <:+ text := by
  rw [readStartTag] at h
  dsimp only at h
  split at h
  · cases h
  · cases h
  · cases h
  · split at h
    · cases h
    · cases h
      exact (readAttributes_suffix _ _ _).trans
        ((skipSeparators_suffix _).trans (List.dropWhile_suffix _))

theorem readOpening_proper (final : Bool) {c : Char} (letter : isAsciiLetter c = true)
    (rest : List Char) : (readOpening final ('<' :: c :: rest)).Proper := by
  rw [readOpening]
  split
  · next read => exact ⟨readStartTag_complete letter read, rfl⟩
  · exact unfinished_proper _ (List.cons_ne_nil _ _)
  · next read =>
      exact Outcome.proper_dataUpTo (Nat.lt_succ_of_le (readStartTag_malformed read).length_le)

theorem isEndNameCharacter_tagName {c : Char} (h : isEndNameCharacter c = true) :
    isTagNameCharacter c = true := by
  simp only [isEndNameCharacter, Bool.or_eq_true, beq_iff_eq] at h
  rcases h with (((word | rfl) | rfl) | rfl) | rfl
  · exact (isAsciiAlphanumeric_name word).2.1
  all_goals decide

theorem readEndTag_proper {inside rest : List Char} {name : String}
    (h : readEndTag inside = some (name, rest)) : IsTagName name := by
  rw [readEndTag] at h
  split at h
  · cases h
  · split at h
    · next letter =>
        split at h
        · cases h
          exact isTagName_nameOf letter fun d there =>
            isEndNameCharacter_tagName (List.mem_takeWhile_imp there)
        · cases h
    · cases h

theorem readClosing_proper (final : Bool) {text : List Char} (some : text ≠ []) :
    (readClosing final text).Proper := by
  unfold readClosing
  dsimp only
  split
  · exact unfinished_proper _ some
  next content rest found =>
    split
    · next read => exact ⟨readEndTag_proper read, rfl⟩
    split
    · exact unfinished_proper _ some
    next c more same =>
      split
      · next letter =>
          rw [same]
          exact ⟨isTagName_takeWhile letter more, rfl⟩
      split
      · rfl
      · exact ⟨properComment_of_notMem (upToBracket?_eq_some found).2, rfl⟩

/-! ## Declarations and comments -/

/-- A section that is enclosed starts with the name of its kind. -/
theorem enclosed?_section {c : Char} (letter : isAsciiLetter c = true) {brackets : Nat}
    {cs content rest : List Char}
    (h : enclosed? (startsSectionEnd (brackets + 1)) (c :: cs) = some (content, rest)) :
    ∃ more, content = c :: more ∧
      sectionKind content = nameOf (c :: cs.takeWhile isSectionNameCharacter) := by
  obtain ⟨⟨before, after⟩, broken, same⟩ := Option.map_eq_some_iff.mp h
  cases same
  obtain ⟨whole, -⟩ := breakWhere_eq_some broken
  have stops := breakWhere_stops broken
  have nameLetter : isSectionNameCharacter c = true := by
    simp [isSectionNameCharacter, isAsciiLetter_alphanumeric letter]
  -- the end starts with a bracket, which is neither a letter nor a character of the name
  obtain ⟨behind, rfl⟩ : ∃ behind, after = ']' :: behind := by
    cases after with
    | nil => cases stops
    | cons d behind =>
        rw [startsSectionEnd_cons, Bool.and_eq_true, beq_iff_eq] at stops
        exact ⟨behind, by rw [stops.1]⟩
  cases content with
  | nil =>
      obtain ⟨rfl, -⟩ := List.cons.inj whole
      cases letter
  | cons d more =>
      rw [List.cons_append] at whole
      obtain ⟨rfl, rfl⟩ := List.cons.inj whole
      refine ⟨more, rfl, ?_⟩
      rw [sectionKind, List.takeWhile_cons_of_pos nameLetter, List.takeWhile_append]
      split
      · next all =>
          have own : more.takeWhile isSectionNameCharacter = more :=
            (List.takeWhile_prefix _).eq_of_length all
          rw [own, List.takeWhile_cons_of_neg (by decide), List.append_nil]
      · rfl

theorem readSection_proper (final : Bool) {text : List Char} (some : text ≠ []) :
    (readSection final text).Proper := by
  unfold readSection
  dsimp only
  split
  · exact unfinished_proper _ some
  next c cs same =>
    split
    next letter =>
      split
      · exact unfinished_proper _ some
      split
      · trivial
      next count brackets =>
        rw [same]
        split
        · exact unfinished_proper _ some
        next content rest read =>
          refine ⟨?_, rfl⟩
          -- the number of brackets is the one of the kind of the section
          split at brackets
          · next double =>
              cases brackets
              obtain ⟨more, rfl, kind⟩ := enclosed?_section letter read
              rw [List.contains_iff_mem, ← kind] at double
              exact ⟨⟨c, more, rfl, letter⟩, Or.inl double⟩
          split at brackets
          · next single =>
              cases brackets
              obtain ⟨more, rfl, kind⟩ := enclosed?_section letter read
              rw [List.contains_iff_mem, ← kind] at single
              exact ⟨⟨c, more, rfl, letter⟩, Or.inr ⟨single, enclosed?_sectionEnd read⟩⟩
          · cases brackets
    · trivial

theorem readDeclaration_proper (final : Bool) {text : List Char} (some : text ≠ []) :
    (readDeclaration final text).Proper := by
  unfold readDeclaration
  dsimp only
  split
  · exact readSection_proper _ some
  split
  · next named =>
      split
      · exact unfinished_proper _ some
      next others rest found =>
          obtain ⟨whole, noBracket⟩ := upToBracket?_eq_some found
          rw [beq_iff_eq] at named
          have long : 7 ≤ (text.drop 2).length := by
            have size := congrArg List.length whole
            rw [List.length_drop, List.length_append, List.length_cons] at size
            omega
          have seven : ((text.drop 2).take 7).length = 7 := List.length_take_of_le long
          refine ⟨⟨?_, ?_, ?_⟩, rfl⟩
          · rw [List.length_append, seven]
            exact Nat.le_add_right _ _
          · rw [List.take_left' seven, named]
          · rw [List.drop_left' seven]
            exact noBracket
  · split
    · exact unfinished_proper _ some
    · next found => exact ⟨properComment_of_notMem (upToBracket?_eq_some found).2, rfl⟩

/-! ## Any construct -/

theorem readBracket_proper (final : Bool) (text : List Char) :
    (readBracket final ('<' :: text)).Proper := by
  have some : '<' :: text ≠ [] := List.cons_ne_nil _ _
  rw [readBracket, List.drop_succ_cons, List.drop_zero]
  cases text with
  | nil => trivial
  | cons c rest =>
      dsimp only
      split
      · next letter => exact readOpening_proper _ letter rest
      split
      · exact readClosing_proper _ some
      split
      · split
        · exact unfinished_proper _ some
        · next read =>
            have ends := enclosed?_eq_some
              (fun _ ends more => startsCommentEnd_append ends more) rfl read
            exact ⟨ends, rfl⟩
      split
      · split
        · exact unfinished_proper _ some
        · next found => exact ⟨(upToBracket?_eq_some found).2, rfl⟩
      split
      · exact readDeclaration_proper _ some
      · exact ⟨List.cons_ne_nil _ _, rfl⟩

theorem readAmpersand_proper (final : Bool) (text : List Char) :
    (readAmpersand final text).Proper := by
  unfold readAmpersand
  split
  · trivial
  · split
    · exact ⟨trivial, rfl⟩
    · split <;> trivial
  · split
    · exact ⟨trivial, rfl⟩
    split
    · split <;> trivial
    · exact ⟨List.cons_ne_nil _ _, rfl⟩

/-- Whatever is read outside raw text is proper. -/
theorem readPiece_proper (final : Bool) (c : Char) (text : List Char) :
    (readPiece final .markup (c :: text)).Proper := by
  unfold readPiece
  dsimp only
  split
  · next same =>
      cases same
      exact readBracket_proper _ _
  · exact readAmpersand_proper _ _
  · next less ampersand =>
      have plain : startsConstruct c = false := by
        rw [startsConstruct, Bool.or_eq_false_iff, beq_eq_false_iff_ne, beq_eq_false_iff_ne]
        exact ⟨fun same => less text (by rw [same]), fun same => ampersand text (by rw [same])⟩
      have drops : (c :: text).dropWhile (fun d => !startsConstruct d) <:+ text := by
        rw [List.dropWhile_cons_of_pos (by rw [plain]; rfl)]
        exact List.dropWhile_suffix _
      exact Outcome.proper_dataUpTo (Nat.lt_succ_of_le drops.length_le)

end MessageCatalog.Markup
