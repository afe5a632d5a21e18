import MessageCatalog.Proofs.Message.Scanner

/-!
# MessageCatalog.Proofs.Message.Exact -- the parser reads the grammar and nothing else

The parser recurses on fuel, the grammar on derivations. Soundness is an induction on the fuel that
treats the four rules together; completeness is an induction on the derivation, with a bound on the
fuel that the length of the text gives. Both together make the grammar a function of the text.
-/

namespace MessageCatalog.Message

open MessageCatalog.Text

variable {context : Context}

/-! ## What the parser accepts, the grammar derives -/

/-- What the keys of a list of cases say about its choice, given the keys before them. -/
structure KeysFit (seen : List String) (cases : Cases) : Prop where
  distinct : (cases.map Prod.fst).Nodup
  new : ∀ key ∈ cases.map Prod.fst, key ∉ seen
  other : "other" ∈ seen ∨ "other" ∈ cases.map Prod.fst

theorem KeysFit.cons {seen : List String} {cases : Cases} {key : String} (body : Message)
    (fit : KeysFit (key :: seen) cases) (new : key ∉ seen) :
    KeysFit seen ((key, body) :: cases) where
  distinct := by
    rw [List.map_cons, List.nodup_cons]
    exact ⟨fun again => fit.new key again List.mem_cons_self, fit.distinct⟩
  new := by
    intro k hk
    rw [List.map_cons, List.mem_cons] at hk
    rcases hk with rfl | hk
    · exact new
    · exact fun old => fit.new k hk (List.mem_cons_of_mem key old)
  other := by
    rcases fit.other with h | h
    · rcases List.mem_cons.mp h with h | h
      · exact .inr (by simp [h])
      · exact .inl h
    · exact .inr (List.mem_cons_of_mem key h)

theorem KeysFit.of_cons {seen : List String} {cases : Cases} {key : String} {body : Message}
    (fit : KeysFit seen ((key, body) :: cases)) : key ∉ seen ∧ KeysFit (key :: seen) cases := by
  obtain ⟨distinct, new, other⟩ := fit
  rw [List.map_cons, List.nodup_cons] at distinct
  refine ⟨new key List.mem_cons_self, distinct.2, ?_, ?_⟩
  · intro k hk old
    rcases List.mem_cons.mp old with rfl | old
    · exact distinct.1 hk
    · exact new k (List.mem_cons_of_mem key hk) old
  · rw [List.map_cons, List.mem_cons] at other
    rw [List.mem_cons]
    tauto

theorem CompleteCases.keysFit {cases : Cases} (h : CompleteCases cases) : KeysFit [] cases :=
  ⟨h.1, by simp, .inr h.2⟩

theorem KeysFit.complete {cases : Cases} (fit : KeysFit [] cases) : CompleteCases cases := by
  refine ⟨fit.distinct, ?_⟩
  rcases fit.other with h | h
  · cases h
  · exact h

/-- The rules are sound with some fuel. -/
structure SoundAt (context : Context) (fuel : Nat) : Prop where
  elements : ∀ {depth inPlural text message rest},
    parseElements context fuel depth inPlural text = .ok (message, rest) →
      Elements context depth inPlural text message rest
  argument : ∀ {depth inPlural opened element rest},
    parseArgument context fuel depth inPlural ('\x7b' :: opened) = .ok (element, rest) →
      Argument context depth inPlural opened element rest
  choice : ∀ {depth inPlural name kind text element rest}, kind ∈ choiceKinds →
    (∀ c ∈ text.head?, isBlank c = false) →
    parseChoice context fuel depth inPlural name kind text = .ok (element, rest) →
      Choice context depth inPlural name kind text element rest
  cases : ∀ {depth inPlural name categories seen text cases rest},
    parseCases context fuel depth inPlural name categories seen text =
        .ok (cases, '\x7d' :: rest) →
      CaseList context depth inPlural categories text cases ('\x7d' :: rest) ∧ KeysFit seen cases

theorem elements_sound {fuel : Nat} (ih : SoundAt context fuel) {depth : Nat} {inPlural : Bool}
    {text rest : List Char} {message : Message}
    (h : parseElements context (fuel + 1) depth inPlural text = .ok (message, rest)) :
    Elements context depth inPlural text message rest := by
  rw [parseElements] at h
  split at h
  · cases h
  · next chars behind read =>
      have run := readText_iff.mp read
      split at h
      · next opened =>
          split at h
          · cases h
          · next element after parsed =>
              split at h
              · cases h
              · next others last parsedOthers =>
                  cases h
                  exact .argument run (ih.argument parsed) (ih.elements parsedOthers)
      · next after =>
          split at h
          · cases h
          · next others last parsedOthers =>
              cases h
              exact .number run (ih.elements parsedOthers)
      · next noBrace noSign =>
          -- the run stops at a token, and this one is none of the two that go on
          cases h
          refine .last run ?_
          intro c hc
          obtain ⟨tail, rfl⟩ := List.head?_eq_some_iff.mp hc
          rcases run.stops c rfl with rfl | rfl | ⟨rfl, _⟩
          · exact absurd rfl (noBrace tail)
          · rfl
          · exact absurd rfl (noSign tail)

theorem kind_test {kind : String} :
    (kind == "select" || kind == "plural" || kind == "selectordinal") = true ↔
      kind ∈ choiceKinds := by
  simp [choiceKinds, or_assoc]

theorem argument_sound {fuel : Nat} (ih : SoundAt context fuel) {depth : Nat} {inPlural : Bool}
    {opened rest : List Char} {element : Element}
    (h : parseArgument context (fuel + 1) depth inPlural ('\x7b' :: opened) =
      .ok (element, rest)) :
    Argument context depth inPlural opened element rest := by
  rw [parseArgument, List.drop_one, List.tail_cons] at h
  split at h
  · cases h
  next name behindName readName =>
  have word := readWord_iff.mp readName
  have blanks := blanks_skipBlanks opened
  -- a brace, or a comma and the type
  split at h
  · next after closed =>
      cases h
      exact .plain blanks word (blanks_iff.mpr closed)
  split at h
  · cases h
  next behindComma comma =>
  have comma := blanks_iff.mpr (expect_iff.mp comma)
  split at h
  · cases h
  next kind behindKind readKind =>
  have kindWord := readWord_iff.mp readKind
  have kindBlanks := blanks_skipBlanks behindComma
  -- the types of choices have cases behind them, all others a style or nothing
  split at h
  · next choice =>
      split at h
      · cases h
      next shallow =>
      split at h
      · cases h
      next behindComma₂ comma₂ =>
      have comma₂ := blanks_iff.mpr (expect_iff.mp comma₂)
      have blanks₂ := blanks_skipBlanks behindComma₂
      exact .choice blanks word comma kindBlanks kindWord (kind_test.mp choice) comma₂ blanks₂
        (Int.not_le.mp shallow) (ih.choice (kind_test.mp choice) (blanks₂.stops) h)
  · next format =>
      have format := mt kind_test.mpr format
      split at h
      next style behindStyle readStyle =>
      split at h
      · cases h
      next closed =>
      cases h
      rw [expect_iff.mp closed, readStyle_iff] at readStyle
      rcases readStyle with ⟨closed, rfl⟩ | ⟨written, styled, braceless, style⟩
      · exact .format blanks word comma kindBlanks kindWord format (blanks_iff.mpr closed)
      · exact .styled blanks word comma kindBlanks kindWord format (blanks_iff.mpr styled)
          braceless style

/-- White space in front of cases does not matter. -/
theorem CaseList.of_skipBlanks {depth : Nat} {inPlural : Bool} {categories : Option (List String)}
    {text other rest : List Char} {cases : Cases} (same : skipBlanks text = skipBlanks other)
    (h : CaseList context depth inPlural categories text cases rest) :
    CaseList context depth inPlural categories other cases rest := by
  have front : ∀ {behind}, Blanks text behind → Blanks other behind := fun blanks =>
    blanks_iff.mpr (same.symm.trans (blanks_iff.mp blanks))
  cases h with
  | nil first => exact .nil (front first)
  | cons first word allowed opened body others =>
      exact .cons (front first) word allowed opened body others

theorem choice_sound {fuel : Nat} (ih : SoundAt context fuel) {depth : Nat} {inPlural : Bool}
    {name kind : String} {text rest : List Char} {element : Element} (known : kind ∈ choiceKinds)
    (start : ∀ c ∈ text.head?, isBlank c = false)
    (h : parseChoice context (fuel + 1) depth inPlural name kind text = .ok (element, rest)) :
    Choice context depth inPlural name kind text element rest := by
  rw [parseChoice] at h
  split at h
  · next select =>
      obtain rfl := beq_iff_eq.mp select
      split at h
      · cases h
      next cases behind parsed =>
      split at h
      · cases h
      next closed =>
      cases h
      rw [expect_iff.mp closed] at parsed
      obtain ⟨list, fit⟩ := ih.cases parsed
      exact .select list fit.complete
  · next number =>
      split at h
      · cases h
      next offset behindOffset readOffset =>
      obtain ⟨behindDigits, offset, blanks⟩ := (readOffset_iff start).mp readOffset
      dsimp only at h
      split at h
      · cases h
      next cases behind parsed =>
      split at h
      · cases h
      next closed =>
      cases h
      rw [expect_iff.mp closed] at parsed
      obtain ⟨list, fit⟩ := ih.cases parsed
      -- the parser skips white space behind the offset, the grammar in front of the first key
      have list := list.of_skipBlanks (blanks.skipped.trans (blanks_iff.mp blanks).symm)
      have kinds : kind = "plural" ∨ kind = "selectordinal" := by
        simpa [choiceKinds, beq_eq_false_iff_ne.mp (Bool.not_eq_true _ ▸ number)] using known
      rcases kinds with rfl | rfl
      · exact .plural offset list fit.complete
      · exact .ordinal offset list fit.complete

theorem cases_sound {fuel : Nat} (ih : SoundAt context fuel) {depth : Nat} {inPlural : Bool}
    {name : String} {categories : Option (List String)} {seen : List String}
    {text rest : List Char} {cases : Cases}
    (h : parseCases context (fuel + 1) depth inPlural name categories seen text =
      .ok (cases, '\x7d' :: rest)) :
    CaseList context depth inPlural categories text cases ('\x7d' :: rest) ∧
      KeysFit seen cases := by
  have blanks := blanks_skipBlanks text
  rw [parseCases] at h
  split at h
  · next ended =>
      split at h
      · next other =>
          obtain ⟨rfl, closed⟩ := Prod.mk.inj (Except.ok.inj h)
          rw [closed] at blanks
          exact ⟨.nil blanks, by simp, by simp, .inl (by simpa using other)⟩
      · cases h
  split at h
  · cases h
  next key behindKey readKey =>
  have word := readWord_iff.mp readKey
  split at h
  · cases h
  next allowed =>
  obtain ⟨allowed, new⟩ := checkKey_iff.mp allowed
  split at h
  · cases h
  next opened readOpened =>
  have opened := blanks_iff.mpr (expect_iff.mp readOpened)
  split at h
  · cases h
  next body behindBody parsedBody =>
  split at h
  · cases h
  next behind closed =>
  rw [expect_iff.mp closed] at parsedBody
  split at h
  · cases h
  next others last parsedOthers =>
  obtain ⟨rfl, rfl⟩ := Prod.mk.inj (Except.ok.inj h)
  obtain ⟨list, fit⟩ := ih.cases parsedOthers
  exact ⟨.cons blanks word allowed opened (ih.elements parsedBody) list, fit.cons body new⟩

theorem soundAt (context : Context) (fuel : Nat) : SoundAt context fuel := by
  induction fuel with
  | zero =>
      -- without fuel no rule reads anything
      constructor
      · intro _ _ _ _ _ h
        rw [parseElements] at h
        cases h
      · intro _ _ _ _ _ h
        rw [parseArgument] at h
        cases h
      · intro _ _ _ _ _ _ _ _ _ h
        rw [parseChoice] at h
        cases h
      · intro _ _ _ _ _ _ _ _ h
        rw [parseCases] at h
        cases h
  | succ fuel ih =>
      exact ⟨elements_sound ih, argument_sound ih, choice_sound ih, cases_sound ih⟩

/-! ## What the grammar derives, the parser accepts -/

theorem Elements.length_le {depth : Nat} {inPlural : Bool} {text rest : List Char}
    {message : Message} (h : Elements context depth inPlural text message rest) :
    rest.length ≤ text.length := h.suffix.length_le

theorem Argument.length_lt {depth : Nat} {inPlural : Bool} {text rest : List Char}
    {element : Element} (h : Argument context depth inPlural text element rest) :
    rest.length < text.length := h.suffix.length_le

/-- The white space behind an offset. -/
theorem Offset.blanks {text rest : List Char} {offset : Nat} (h : Offset text offset rest) :
    Blanks rest (skipBlanks rest) ∧ (skipBlanks rest).length ≤ text.length :=
  ⟨blanks_skipBlanks rest, (blanks_skipBlanks rest).length_le.trans h.length_le⟩

mutual
theorem Elements.parse {depth : Nat} {inPlural : Bool} {text rest : List Char}
    {message : Message} :
    Elements context depth inPlural text message rest →
      ∀ fuel, 3 * text.length + 2 ≤ fuel →
        parseElements context fuel depth inPlural text = .ok (message, rest)
  | _, 0, enough => absurd enough (by omega)
  | .last run ends, fuel + 1, enough => by
      rw [parseElements, readText_complete run]
      cases rest with
      | nil => rfl
      | cons c cs =>
          obtain rfl := ends c rfl
          rfl
  | .number run others, fuel + 1, enough => by
      have shorter := run.length_le
      simp only [List.length_cons] at shorter
      simp only [parseElements, readText_complete run, others.parse fuel (by omega)]
  | .argument run argument others, fuel + 1, enough => by
      have shorter := run.length_le
      have shorter₂ := argument.length_lt
      simp only [List.length_cons] at shorter
      simp only [parseElements, readText_complete run, argument.parse fuel (by omega),
        others.parse fuel (by omega)]
termination_by structural _ fuel => fuel

theorem Argument.parse {depth : Nat} {inPlural : Bool} {opened rest : List Char}
    {element : Element} :
    Argument context depth inPlural opened element rest →
      ∀ fuel, 3 * opened.length + 4 ≤ fuel →
        parseArgument context fuel depth inPlural ('\x7b' :: opened) = .ok (element, rest)
  | _, 0, enough => absurd enough (by omega)
  | .plain blanks word closed, fuel + 1, _ => by
      simp only [parseArgument, List.drop_one, List.tail_cons, blanks_iff.mp blanks,
        readWord_iff.mpr word, blanks_iff.mp closed]
  | .format blanks word comma kindBlanks kind other closed, fuel + 1, _ => by
      simp only [parseArgument, List.drop_one, List.tail_cons, blanks_iff.mp blanks,
        readWord_iff.mpr word, blanks_iff.mp comma]
      split
      · next brace => cases brace
      simp only [expect_cons, blanks_iff.mp kindBlanks, readWord_iff.mpr kind, mt kind_test.mp other,
        Bool.false_eq_true, if_false, blanks_iff.mp closed,
        readStyle_iff.mpr (.inl ⟨rfl, rfl⟩)]
  | .styled blanks word comma kindBlanks kind other styled braceless style, fuel + 1, _ => by
      simp only [parseArgument, List.drop_one, List.tail_cons, blanks_iff.mp blanks,
        readWord_iff.mpr word, blanks_iff.mp comma]
      split
      · next brace => cases brace
      simp only [expect_cons, blanks_iff.mp kindBlanks, readWord_iff.mpr kind, mt kind_test.mp other,
        Bool.false_eq_true, if_false, blanks_iff.mp styled,
        readStyle_iff.mpr (.inr ⟨_, rfl, braceless, style⟩)]
  | .choice blanks word comma kindBlanks kind known comma₂ blanks₂ shallow choice, fuel + 1,
      enough => by
      have h₁ := blanks.length_le
      have h₂ := word.length_lt
      have h₃ := comma.length_le
      have h₄ := kindBlanks.length_le
      have h₅ := kind.length_lt
      have h₆ := comma₂.length_le
      have h₇ := blanks₂.length_le
      simp only [List.length_cons] at h₃ h₆
      simp only [parseArgument, List.drop_one, List.tail_cons, blanks_iff.mp blanks,
        readWord_iff.mpr word, blanks_iff.mp comma]
      split
      · next brace => cases brace
      simp only [expect_cons, blanks_iff.mp kindBlanks, readWord_iff.mpr kind, kind_test.mpr known,
        if_true, Int.not_le.mpr shallow, if_false, blanks_iff.mp comma₂, blanks_iff.mp blanks₂,
        choice.parse blanks₂.stops fuel (by omega)]
termination_by structural _ fuel => fuel

theorem Choice.parse {depth : Nat} {inPlural : Bool} {name kind : String}
    {text rest : List Char} {element : Element} :
    Choice context depth inPlural name kind text element rest →
      (∀ c ∈ text.head?, isBlank c = false) → ∀ fuel, 3 * text.length + 3 ≤ fuel →
        parseChoice context fuel depth inPlural name kind text = .ok (element, rest)
  | _, _, 0, enough => absurd enough (by omega)
  | .select list complete, _, fuel + 1, enough => by
      simp only [parseChoice, beq_self_eq_true, if_true,
        list.parse complete.keysFit fuel (by omega), expect_cons]
  | .plural offset list complete, start, fuel + 1, enough => by
      obtain ⟨blanks, shorter⟩ := offset.blanks
      have list := list.of_skipBlanks blanks.skipped.symm
      have notSelect : ("plural" == "select") = false := by decide
      have notOrdinal : ("plural" == "selectordinal") = false := by decide
      simp only [parseChoice, notSelect, notOrdinal, Bool.false_eq_true, if_false,
        (readOffset_iff start).mpr ⟨_, offset, blanks⟩,
        list.parse complete.keysFit fuel (by omega), expect_cons]
  | .ordinal offset list complete, start, fuel + 1, enough => by
      obtain ⟨blanks, shorter⟩ := offset.blanks
      have list := list.of_skipBlanks blanks.skipped.symm
      have notSelect : ("selectordinal" == "select") = false := by decide
      simp only [parseChoice, notSelect, beq_self_eq_true, Bool.false_eq_true, if_false, if_true,
        (readOffset_iff start).mpr ⟨_, offset, blanks⟩,
        list.parse complete.keysFit fuel (by omega), expect_cons]
termination_by structural _ _ fuel => fuel

theorem CaseList.parse {depth : Nat} {inPlural : Bool} {categories : Option (List String)}
    {name : String} {seen : List String} {text rest : List Char} {cases : Cases} :
    CaseList context depth inPlural categories text cases rest → KeysFit seen cases →
      ∀ fuel, 3 * text.length + 2 ≤ fuel →
        parseCases context fuel depth inPlural name categories seen text = .ok (cases, rest)
  | _, _, 0, enough => absurd enough (by omega)
  | .nil blanks, fit, fuel + 1, _ => by
      have other : "other" ∈ seen := by simpa using fit.other
      simp [parseCases, blanks_iff.mp blanks, other]
  | .cons blanks word allowed opened body others, fit, fuel + 1, enough => by
      obtain ⟨new, fit⟩ := fit.of_cons
      have h₁ := blanks.length_le
      have h₂ := word.length_lt
      have h₃ := opened.length_le
      have h₄ := body.length_le
      simp only [List.length_cons] at h₃ h₄
      simp only [parseCases, blanks_iff.mp blanks, word.not_closed, Bool.false_eq_true, if_false,
        readWord_iff.mpr word, checkKey_iff.mpr ⟨allowed, new⟩, blanks_iff.mp opened, expect_cons,
        body.parse fuel (by omega), others.parse fit fuel (by omega)]
termination_by structural _ _ fuel => fuel
end

/-! ## Whole texts -/

theorem parse_iff_parseText {text : List Char} {message : Message} :
    parse context text = .ok message ↔ parseText context text = .ok message := by
  unfold parse
  cases parseText context text with
  | error fault => simp
  | ok found => simp

theorem parseText_iff {text : List Char} {message : Message} :
    parseText context text = .ok message ↔ Derives context text message := by
  constructor
  · intro h
    unfold parseText at h
    split at h
    · cases h
    · next parsed =>
        cases h
        exact (soundAt context _).elements parsed
    · cases h
  · intro h
    have parsed := Elements.parse h (3 * text.length + 3) (by omega)
    simp only [parseText, parsed]

/-- The parser accepts a text with a message exactly when the grammar derives that message from the
text, and the grammar derives at most one. -/
theorem parse_exact (context : Context) (text : List Char) :
    (∀ message, parse context text = .ok message ↔ Derives context text message) ∧
      ∀ first second, Derives context text first → Derives context text second →
        first = second := by
  have exact : ∀ message, parse context text = .ok message ↔ Derives context text message :=
    fun message => parse_iff_parseText.trans parseText_iff
  refine ⟨exact, fun first second h₁ h₂ => ?_⟩
  have same := ((exact first).mpr h₁).symm.trans ((exact second).mpr h₂)
  exact Except.ok.inj same

end MessageCatalog.Message
