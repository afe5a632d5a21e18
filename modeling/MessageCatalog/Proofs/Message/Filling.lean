import MessageCatalog.Proofs.Message.Exact

/-!
# MessageCatalog.Proofs.Message.Filling -- the texts that a message comes to

A message is filled by choosing one case of every choice and putting letters and digits in place of
the arguments and the number. The text of the message is turned into the filled one by edits:
characters stay, and stretches of notation go or have the filling in their place. The grammar is
stated once more with the edits of every rule, and they give the fillings of the message and no
others.
-/

namespace MessageCatalog.Message

open MessageCatalog.Text

/-! ## Filled messages -/

/-- What is put in place of an argument or a number. -/
def IsFilling (chars : List Char) : Prop :=
  chars ≠ [] ∧ ∀ c ∈ chars, isAsciiAlphanumeric c = true

mutual
/-- A text that a message comes to. -/
inductive Fills : Message → List Char → Prop where
  | nil : Fills [] []
  | cons {element : Element} {message : Message} {chars others : List Char} :
      FillsElement element chars → Fills message others →
      Fills (element :: message) (chars ++ others)

/-- A text that an element comes to: for a choice one that a case of it comes to. -/
inductive FillsElement : Element → List Char → Prop where
  | text (value : String) : FillsElement (.text value) value.toList
  | argument {name : String} {chars : List Char} :
      IsFilling chars → FillsElement (.argument name) chars
  | number {chars : List Char} : IsFilling chars → FillsElement .number chars
  | format {name kind : String} {style : Option String} {chars : List Char} :
      IsFilling chars → FillsElement (.format name kind style) chars
  | select {name key : String} {cases : Cases} {body : Message} {chars : List Char} :
      (key, body) ∈ cases → Fills body chars → FillsElement (.select name cases) chars
  | plural {name key : String} {offset : Int} {ordinal : Bool} {cases : Cases} {body : Message}
      {chars : List Char} :
      (key, body) ∈ cases → Fills body chars →
      FillsElement (.plural name offset ordinal cases) chars
end

theorem fills_withText {chars filled : List Char} {message : Message} :
    Fills (withText chars message) filled ↔
      ∃ others, filled = chars ++ others ∧ Fills message others := by
  cases chars with
  | nil => simp [withText]
  | cons c cs =>
      have written : withText (c :: cs) message = .text (String.ofList (c :: cs)) :: message := rfl
      rw [written]
      constructor
      · rintro (_ | ⟨⟨_⟩, others⟩)
        exact ⟨_, by rw [String.toList_ofList], others⟩
      · rintro ⟨others, rfl, filled⟩
        have own := FillsElement.text (String.ofList (c :: cs))
        rw [String.toList_ofList] at own
        exact .cons own filled

/-! ## Edits -/

/-- A step from one text to another. -/
inductive Edit where
  /-- A character that stays. -/
  | keep (c : Char)
  /-- A stretch that goes, and what stands in its place. -/
  | swap (gone instead : List Char)

/-- The part of the first text that an edit reads. -/
def Edit.source : Edit → List Char
  | keep c => [c]
  | swap gone _ => gone

/-- The part of the second text that an edit writes. -/
def Edit.target : Edit → List Char
  | keep c => [c]
  | swap _ instead => instead

/-- The text that edits start from. -/
def sourceOf (edits : List Edit) : List Char := edits.flatMap Edit.source

/-- The text that edits lead to. -/
def targetOf (edits : List Edit) : List Char := edits.flatMap Edit.target

@[simp] theorem sourceOf_nil : sourceOf [] = [] := rfl

@[simp] theorem targetOf_nil : targetOf [] = [] := rfl

@[simp] theorem sourceOf_cons (edit : Edit) (edits : List Edit) :
    sourceOf (edit :: edits) = edit.source ++ sourceOf edits := List.flatMap_cons

@[simp] theorem targetOf_cons (edit : Edit) (edits : List Edit) :
    targetOf (edit :: edits) = edit.target ++ targetOf edits := List.flatMap_cons

@[simp] theorem sourceOf_append (edits others : List Edit) :
    sourceOf (edits ++ others) = sourceOf edits ++ sourceOf others := List.flatMap_append

@[simp] theorem targetOf_append (edits others : List Edit) :
    targetOf (edits ++ others) = targetOf edits ++ targetOf others := List.flatMap_append

/-! ## The grammar with edits -/

/-- The inside of a literal: the apostrophes that close it and that double another one go. -/
inductive LiteralEdits : List Char → List Edit → List Char → Prop where
  | close {rest : List Char} :
      rest.head? ≠ some '\'' → LiteralEdits ('\'' :: rest) [.swap ['\''] []] rest
  | doubled {text rest : List Char} {edits : List Edit} :
      LiteralEdits text edits rest →
      LiteralEdits ('\'' :: '\'' :: text) (.swap ['\''] [] :: .keep '\'' :: edits) rest
  | char {c : Char} {text rest : List Char} {edits : List Edit} :
      c ≠ '\'' → LiteralEdits text edits rest → LiteralEdits (c :: text) (.keep c :: edits) rest

/-- A run of text: the apostrophes that quote something go. -/
inductive TextEdits (inPlural : Bool) : List Char → List Edit → List Char → Prop where
  | stop {rest : List Char} :
      (∀ c ∈ rest.head?, Special inPlural c) → TextEdits inPlural rest [] rest
  | doubled {text rest : List Char} {edits : List Edit} :
      TextEdits inPlural text edits rest →
      TextEdits inPlural ('\'' :: '\'' :: text) (.swap ['\''] [] :: .keep '\'' :: edits) rest
  | quoted {c : Char} {text behind rest : List Char} {literal edits : List Edit} :
      Special inPlural c → LiteralEdits (c :: text) literal behind →
      TextEdits inPlural behind edits rest →
      TextEdits inPlural ('\'' :: c :: text) (.swap ['\''] [] :: literal ++ edits) rest
  | apostrophe {text rest : List Char} {edits : List Edit} :
      (∀ c ∈ text.head?, c ≠ '\'' ∧ ¬Special inPlural c) → TextEdits inPlural text edits rest →
      TextEdits inPlural ('\'' :: text) (.keep '\'' :: edits) rest
  | char {c : Char} {text rest : List Char} {edits : List Edit} :
      c ≠ '\'' → ¬Special inPlural c → TextEdits inPlural text edits rest →
      TextEdits inPlural (c :: text) (.keep c :: edits) rest

/-- An element that stands for a value. -/
def Element.IsPlaceholder : Element → Prop
  | .argument _ | .format _ _ _ => True
  | _ => False

mutual
/-- A message with its edits. A number sign that is a token goes for a filling. -/
inductive Edited (context : Context) :
    Nat → Bool → List Char → Message → List Edit → List Char → Prop where
  | last {depth : Nat} {inPlural : Bool} {text rest : List Char} {edits : List Edit} :
      TextEdits inPlural text edits rest → (∀ c ∈ rest.head?, c = '\x7d') →
      Edited context depth inPlural text (withText (targetOf edits) []) edits rest
  | number {depth : Nat} {inPlural : Bool} {text behind rest chars : List Char}
      {others : Message} {edits more : List Edit} :
      TextEdits inPlural text edits ('#' :: behind) → IsFilling chars →
      Edited context depth inPlural behind others more rest →
      Edited context depth inPlural text (withText (targetOf edits) (.number :: others))
        (edits ++ .swap ['#'] chars :: more) rest
  | argument {depth : Nat} {inPlural : Bool} {text opened behind rest : List Char}
      {element : Element} {others : Message} {edits own more : List Edit} :
      TextEdits inPlural text edits ('\x7b' :: opened) →
      ArgumentEdited context depth inPlural opened element own behind →
      Edited context depth inPlural behind others more rest →
      Edited context depth inPlural text (withText (targetOf edits) (element :: others))
        (edits ++ own ++ more) rest

/-- An argument with its edits. A placeholder goes for a filling; of a choice goes what stands before
and behind the chosen case. -/
inductive ArgumentEdited (context : Context) :
    Nat → Bool → List Char → Element → List Edit → List Char → Prop where
  | placeholder {depth : Nat} {inPlural : Bool} {taken rest chars : List Char}
      {element : Element} :
      Argument context depth inPlural (taken ++ rest) element rest → element.IsPlaceholder →
      IsFilling chars →
      ArgumentEdited context depth inPlural (taken ++ rest) element
        [.swap ('\x7b' :: taken) chars] rest
  | choice {depth : Nat} {inPlural : Bool}
      {opening t₁ t₂ t₃ t₄ t₅ t₆ t₇ before after rest : List Char} {name kind : String}
      {element : Element} {edits : List Edit} :
      Blanks (opening ++ t₇) t₁ → Word t₁ name t₂ → Blanks t₂ (',' :: t₃) →
      Blanks t₃ t₄ → Word t₄ kind t₅ → kind ∈ choiceKinds → Blanks t₅ (',' :: t₆) →
      Blanks t₆ t₇ → (depth : Int) < context.maxDepth →
      ChoiceEdited context depth inPlural name kind t₇ element before edits after rest →
      ArgumentEdited context depth inPlural (opening ++ t₇) element
        (.swap ('\x7b' :: opening ++ before) [] :: edits ++ [.swap after []]) rest

/-- The cases of a choice: what stands before the chosen one, its edits, and what stands behind it
up to the closing brace of the choice. -/
inductive ChoiceEdited (context : Context) :
    Nat → Bool → String → String → List Char → Element → List Char → List Edit → List Char →
      List Char → Prop where
  | select {depth : Nat} {inPlural : Bool} {name : String} {text before after rest : List Char}
      {cases : Cases} {edits : List Edit} :
      CaseEdited context (depth + 1) inPlural none text cases before edits after ('\x7d' :: rest) →
      CompleteCases cases →
      ChoiceEdited context depth inPlural name "select" text (.select name cases) before edits
        (after ++ ['\x7d']) rest
  | plural {depth : Nat} {inPlural : Bool} {name : String}
      {mark t₁ before after rest : List Char} {offset : Nat} {cases : Cases} {edits : List Edit} :
      Offset (mark ++ t₁) offset t₁ →
      CaseEdited context (depth + 1) true (some context.cardinal) t₁ cases before edits after
        ('\x7d' :: rest) →
      CompleteCases cases →
      ChoiceEdited context depth inPlural name "plural" (mark ++ t₁)
        (.plural name offset false cases) (mark ++ before) edits (after ++ ['\x7d']) rest
  | ordinal {depth : Nat} {inPlural : Bool} {name : String}
      {mark t₁ before after rest : List Char} {offset : Nat} {cases : Cases} {edits : List Edit} :
      Offset (mark ++ t₁) offset t₁ →
      CaseEdited context (depth + 1) true (some context.ordinal) t₁ cases before edits after
        ('\x7d' :: rest) →
      CompleteCases cases →
      ChoiceEdited context depth inPlural name "selectordinal" (mark ++ t₁)
        (.plural name offset true cases) (mark ++ before) edits (after ++ ['\x7d']) rest

/-- Cases with a chosen one. -/
inductive CaseEdited (context : Context) :
    Nat → Bool → Option (List String) → List Char → Cases → List Char → List Edit → List Char →
      List Char → Prop where
  | here {depth : Nat} {inPlural : Bool} {categories : Option (List String)}
      {head tail t₁ t₂ t₃ rest : List Char} {key : String} {body : Message} {others : Cases}
      {edits : List Edit} :
      Blanks (head ++ t₃) t₁ → Word t₁ key t₂ → KeyAllowed categories key →
      Blanks t₂ ('\x7b' :: t₃) →
      Edited context depth inPlural t₃ body edits ('\x7d' :: tail ++ rest) →
      CaseList context depth inPlural categories (tail ++ rest) others rest →
      CaseEdited context depth inPlural categories (head ++ t₃) ((key, body) :: others) head edits
        ('\x7d' :: tail) rest
  | later {depth : Nat} {inPlural : Bool} {categories : Option (List String)}
      {head t₁ t₂ t₃ t₄ before after rest : List Char} {key : String} {body : Message}
      {others : Cases} {edits : List Edit} :
      Blanks (head ++ t₄) t₁ → Word t₁ key t₂ → KeyAllowed categories key →
      Blanks t₂ ('\x7b' :: t₃) → Elements context depth inPlural t₃ body ('\x7d' :: t₄) →
      CaseEdited context depth inPlural categories t₄ others before edits after rest →
      CaseEdited context depth inPlural categories (head ++ t₄) ((key, body) :: others)
        (head ++ before) edits after rest
end

/-! ## Edits follow the grammar -/

theorem Element.IsPlaceholder.fills {element : Element} (h : element.IsPlaceholder)
    {chars : List Char} (filling : IsFilling chars) : FillsElement element chars := by
  cases element with
  | argument name => exact .argument filling
  | format name kind style => exact .format filling
  | text _ | number | select _ _ | plural _ _ _ _ => exact h.elim

variable {context : Context} {inPlural : Bool} {text rest : List Char} {edits : List Edit}

theorem LiteralEdits.sound (h : LiteralEdits text edits rest) :
    Literal text (targetOf edits) rest ∧ text = sourceOf edits ++ rest := by
  induction h with
  | close alone => exact ⟨.close alone, rfl⟩
  | doubled _ ih =>
      obtain ⟨literal, rfl⟩ := ih
      exact ⟨.doubled literal, rfl⟩
  | char other _ ih =>
      obtain ⟨literal, rfl⟩ := ih
      exact ⟨.char other literal, rfl⟩

theorem TextEdits.sound (h : TextEdits inPlural text edits rest) :
    TextRun inPlural text (targetOf edits) rest ∧ text = sourceOf edits ++ rest := by
  induction h with
  | stop token => exact ⟨.stop token, rfl⟩
  | doubled _ ih =>
      obtain ⟨run, rfl⟩ := ih
      exact ⟨.doubled run, rfl⟩
  | quoted special literal _ ih =>
      obtain ⟨run, rfl⟩ := ih
      obtain ⟨inside, same⟩ := literal.sound
      refine ⟨?_, ?_⟩
      · have both := TextRun.quoted special inside run
        rw [← targetOf_append] at both
        exact both
      · rw [same]
        simp [Edit.source]
  | apostrophe plain _ ih =>
      obtain ⟨run, rfl⟩ := ih
      exact ⟨.apostrophe plain run, rfl⟩
  | char other plain _ ih =>
      obtain ⟨run, rfl⟩ := ih
      exact ⟨.char other plain run, rfl⟩

mutual
/-- Edits of a message start from its text and lead to a filling of it. -/
theorem Edited.sound {depth : Nat} {inPlural : Bool} {text rest : List Char} {message : Message}
    {edits : List Edit} : Edited context depth inPlural text message edits rest →
      Elements context depth inPlural text message rest ∧ Fills message (targetOf edits) ∧
        text = sourceOf edits ++ rest
  | .last run ends => by
      obtain ⟨run, same⟩ := run.sound
      refine ⟨.last run ends, fills_withText.mpr ⟨[], ?_, .nil⟩, same⟩
      rw [List.append_nil]
  | .number run filling others => by
      obtain ⟨run, rfl⟩ := run.sound
      obtain ⟨elements, fills, rfl⟩ := others.sound
      refine ⟨.number run elements, ?_, ?_⟩
      · rw [targetOf_append]
        exact fills_withText.mpr ⟨_, rfl, .cons (.number filling) fills⟩
      · rw [sourceOf_append, List.append_assoc]
        rfl
  | .argument run argument others => by
      obtain ⟨run, rfl⟩ := run.sound
      obtain ⟨argument, own, same⟩ := argument.sound
      obtain ⟨elements, fills, rfl⟩ := others.sound
      refine ⟨.argument run argument elements, ?_, ?_⟩
      · rw [targetOf_append, targetOf_append, List.append_assoc]
        exact fills_withText.mpr ⟨_, rfl, .cons own fills⟩
      · rw [same, sourceOf_append, sourceOf_append, List.append_assoc, List.append_assoc]

theorem ArgumentEdited.sound {depth : Nat} {inPlural : Bool} {opened rest : List Char}
    {element : Element} {edits : List Edit} :
    ArgumentEdited context depth inPlural opened element edits rest →
      Argument context depth inPlural opened element rest ∧ FillsElement element (targetOf edits) ∧
        '\x7b' :: opened = sourceOf edits ++ rest
  | .placeholder argument isPlaceholder filling => by
      refine ⟨argument, ?_, by simp [Edit.source]⟩
      simp only [targetOf_cons, Edit.target, targetOf_nil, List.append_nil]
      exact isPlaceholder.fills filling
  | .choice blanks word comma kindBlanks kind known comma₂ blanks₂ shallow choice => by
      obtain ⟨choice, fills, rfl⟩ := choice.sound
      refine ⟨.choice blanks word comma kindBlanks kind known comma₂ blanks₂ shallow choice, ?_, ?_⟩
      · simpa [Edit.target] using fills
      · simp [Edit.source]

theorem ChoiceEdited.sound {depth : Nat} {inPlural : Bool} {name kind : String}
    {text before after rest : List Char} {element : Element} {edits : List Edit} :
    ChoiceEdited context depth inPlural name kind text element before edits after rest →
      Choice context depth inPlural name kind text element rest ∧
        FillsElement element (targetOf edits) ∧ text = before ++ sourceOf edits ++ after ++ rest
  | .select list complete => by
      obtain ⟨list, ⟨key, body, there, fills⟩, rfl⟩ := list.sound
      exact ⟨.select list complete, .select there fills, by simp⟩
  | .plural offset list complete => by
      obtain ⟨list, ⟨key, body, there, fills⟩, rfl⟩ := list.sound
      exact ⟨.plural offset list complete, .plural there fills, by simp⟩
  | .ordinal offset list complete => by
      obtain ⟨list, ⟨key, body, there, fills⟩, rfl⟩ := list.sound
      exact ⟨.ordinal offset list complete, .plural there fills, by simp⟩

theorem CaseEdited.sound {depth : Nat} {inPlural : Bool} {categories : Option (List String)}
    {text before after rest : List Char} {cases : Cases} {edits : List Edit} :
    CaseEdited context depth inPlural categories text cases before edits after rest →
      CaseList context depth inPlural categories text cases rest ∧
        (∃ key body, (key, body) ∈ cases ∧ Fills body (targetOf edits)) ∧
          text = before ++ sourceOf edits ++ after ++ rest
  | .here blanks word allowed opened body others => by
      obtain ⟨elements, fills, rfl⟩ := body.sound
      exact ⟨.cons blanks word allowed opened elements others,
        ⟨_, _, List.mem_cons_self, fills⟩, by simp⟩
  | .later blanks word allowed opened body others => by
      obtain ⟨list, ⟨key, body', there, fills⟩, rfl⟩ := others.sound
      exact ⟨.cons blanks word allowed opened body list,
        ⟨key, body', List.mem_cons_of_mem _ there, fills⟩, by simp⟩
end

/-! ## Every filling has edits -/

theorem Literal.exists_edits {chars : List Char} (h : Literal text chars rest) :
    ∃ edits, LiteralEdits text edits rest ∧ targetOf edits = chars := by
  induction h with
  | close alone => exact ⟨_, .close alone, rfl⟩
  | doubled _ ih =>
      obtain ⟨edits, inside, rfl⟩ := ih
      exact ⟨_, .doubled inside, rfl⟩
  | char other _ ih =>
      obtain ⟨edits, inside, rfl⟩ := ih
      exact ⟨_, .char other inside, rfl⟩

theorem TextRun.exists_edits {chars : List Char} (h : TextRun inPlural text chars rest) :
    ∃ edits, TextEdits inPlural text edits rest ∧ targetOf edits = chars := by
  induction h with
  | stop token => exact ⟨_, .stop token, rfl⟩
  | doubled _ ih =>
      obtain ⟨edits, inside, rfl⟩ := ih
      exact ⟨_, .doubled inside, rfl⟩
  | quoted special literal _ ih =>
      obtain ⟨edits, inside, rfl⟩ := ih
      obtain ⟨own, quoted, rfl⟩ := literal.exists_edits
      exact ⟨_, .quoted special quoted inside, by simp [Edit.target]⟩
  | apostrophe plain _ ih =>
      obtain ⟨edits, inside, rfl⟩ := ih
      exact ⟨_, .apostrophe plain inside, rfl⟩
  | char other plain _ ih =>
      obtain ⟨edits, inside, rfl⟩ := ih
      exact ⟨_, .char other plain inside, rfl⟩

/-- A placeholder goes from its brace to the closing one. -/
theorem Argument.exists_edits_placeholder {depth : Nat} {element : Element} {chars : List Char}
    (h : Argument context depth inPlural text element rest) (isPlaceholder : element.IsPlaceholder)
    (filling : IsFilling chars) :
    ∃ edits, ArgumentEdited context depth inPlural text element edits rest ∧
      targetOf edits = chars := by
  obtain ⟨taken, rfl⟩ := (List.suffix_cons _ _).trans h.suffix
  exact ⟨_, .placeholder h isPlaceholder filling, by simp [Edit.target]⟩

mutual
/-- Every filling of a message comes from edits of its text. -/
theorem Elements.exists_edits {depth : Nat} {inPlural : Bool} {text rest : List Char}
    {message : Message} : Elements context depth inPlural text message rest →
      ∀ filled, Fills message filled → ∃ edits,
        Edited context depth inPlural text message edits rest ∧ targetOf edits = filled
  | .last run ends => by
      intro filled fills
      obtain ⟨edits, inside, rfl⟩ := run.exists_edits
      obtain ⟨_, rfl, ⟨⟩⟩ := fills_withText.mp fills
      exact ⟨edits, .last inside ends, (List.append_nil _).symm⟩
  | .number run others => by
      intro filled fills
      obtain ⟨edits, inside, rfl⟩ := run.exists_edits
      obtain ⟨_, rfl, own⟩ := fills_withText.mp fills
      cases own with
      | cons number later =>
          cases number with
          | number filling =>
              obtain ⟨more, edited, rfl⟩ := others.exists_edits _ later
              exact ⟨_, .number inside filling edited, by simp [Edit.target]⟩
  | .argument run argument others => by
      intro filled fills
      obtain ⟨edits, inside, rfl⟩ := run.exists_edits
      obtain ⟨_, rfl, own⟩ := fills_withText.mp fills
      cases own with
      | cons element later =>
          obtain ⟨own, argumentEdited, rfl⟩ := argument.exists_edits _ element
          obtain ⟨more, edited, rfl⟩ := others.exists_edits _ later
          exact ⟨_, .argument inside argumentEdited edited, by simp⟩

theorem Argument.exists_edits {depth : Nat} {inPlural : Bool} {opened rest : List Char}
    {element : Element} : Argument context depth inPlural opened element rest →
      ∀ filled, FillsElement element filled → ∃ edits,
        ArgumentEdited context depth inPlural opened element edits rest ∧ targetOf edits = filled
  | .plain blanks word closed => by
      rintro filled (_ | filling)
      exact (Argument.plain blanks word closed).exists_edits_placeholder trivial filling
  | .format blanks word comma kindBlanks kind other closed => by
      intro filled fills
      cases fills with
      | format filling =>
          exact (Argument.format blanks word comma kindBlanks kind other
            closed).exists_edits_placeholder trivial filling
  | .styled blanks word comma kindBlanks kind other styled braceless style => by
      intro filled fills
      cases fills with
      | format filling =>
          exact (Argument.styled blanks word comma kindBlanks kind other styled braceless
            style).exists_edits_placeholder trivial filling
  | .choice blanks word comma kindBlanks kind known comma₂ blanks₂ shallow choice => by
      intro filled fills
      obtain ⟨before, edits, after, edited, rfl⟩ := choice.exists_edits _ fills
      -- what goes in front of the chosen case starts at the brace of the argument
      obtain ⟨opening, rfl⟩ := (blanks₂.suffix.trans (List.suffix_cons _ _)).trans
        (suffix_head blanks word comma kindBlanks kind comma₂)
      exact ⟨_, .choice blanks word comma kindBlanks kind known comma₂ blanks₂ shallow edited,
        by simp [Edit.target]⟩

theorem Choice.exists_edits {depth : Nat} {inPlural : Bool} {name kind : String}
    {text rest : List Char} {element : Element} :
    Choice context depth inPlural name kind text element rest →
      ∀ filled, FillsElement element filled → ∃ before edits after,
        ChoiceEdited context depth inPlural name kind text element before edits after rest ∧
          targetOf edits = filled
  | .select list complete => by
      intro filled fills
      cases fills with
      | select there fills =>
          obtain ⟨before, edits, after, edited, same⟩ := list.exists_edits _ _ _ there fills
          exact ⟨_, _, _, .select edited complete, same⟩
  | .plural offset list complete => by
      intro filled fills
      cases fills with
      | plural there fills =>
          obtain ⟨before, edits, after, edited, same⟩ := list.exists_edits _ _ _ there fills
          obtain ⟨mark, rfl⟩ := offset.suffix
          exact ⟨_, _, _, .plural offset edited complete, same⟩
  | .ordinal offset list complete => by
      intro filled fills
      cases fills with
      | plural there fills =>
          obtain ⟨before, edits, after, edited, same⟩ := list.exists_edits _ _ _ there fills
          obtain ⟨mark, rfl⟩ := offset.suffix
          exact ⟨_, _, _, .ordinal offset edited complete, same⟩

theorem CaseList.exists_edits {depth : Nat} {inPlural : Bool} {categories : Option (List String)}
    {text rest : List Char} {cases : Cases} :
    CaseList context depth inPlural categories text cases rest →
      ∀ key body filled, (key, body) ∈ cases → Fills body filled → ∃ before edits after,
        CaseEdited context depth inPlural categories text cases before edits after rest ∧
          targetOf edits = filled
  | .nil _ => fun _ _ _ there => absurd there List.not_mem_nil
  | .cons blanks word allowed opened elements others => by
      intro key body filled there fills
      -- the chosen case is the first one, or one of the others
      rcases List.mem_cons.mp there with same | later
      · cases same
        obtain ⟨edits, edited, same⟩ := elements.exists_edits _ fills
        obtain ⟨head, rfl⟩ := suffix_case blanks word opened
        obtain ⟨tail, rfl⟩ := others.suffix
        exact ⟨_, _, _, .here blanks word allowed opened edited others, same⟩
      · obtain ⟨before, edits, after, edited, same⟩ := others.exists_edits _ _ _ later fills
        obtain ⟨head, rfl⟩ :=
          ((List.suffix_cons _ _).trans elements.suffix).trans (suffix_case blanks word opened)
        exact ⟨_, _, _, .later blanks word allowed opened elements edited, same⟩
end

/-- The edits of a whole text that is a message lead to the fillings of the message and to nothing
else. -/
theorem fills_iff {message : Message} (h : parse context text = .ok message) (filled : List Char) :
    Fills message filled ↔
      ∃ edits, Edited context 0 false text message edits [] ∧ targetOf edits = filled := by
  have derives : Derives context text message := (parse_iff_parseText.trans parseText_iff).mp h
  constructor
  · exact Elements.exists_edits derives filled
  · rintro ⟨edits, edited, rfl⟩
    exact edited.sound.2.1

/-! ## What edits put in -/

/-- An edit that puts in nothing but letters and digits. -/
def Edit.Lettered : Edit → Prop
  | keep _ => True
  | swap _ instead => ∀ c ∈ instead, isAsciiAlphanumeric c = true

theorem Edit.lettered_gone (gone : List Char) : (Edit.swap gone []).Lettered :=
  fun _ there => absurd there List.not_mem_nil

theorem LiteralEdits.lettered (h : LiteralEdits text edits rest) : ∀ edit ∈ edits, edit.Lettered := by
  induction h with
  | close _ => exact List.forall_mem_singleton.mpr (Edit.lettered_gone _)
  | doubled _ ih =>
      exact List.forall_mem_cons.mpr ⟨Edit.lettered_gone _, List.forall_mem_cons.mpr ⟨trivial, ih⟩⟩
  | char _ _ ih => exact List.forall_mem_cons.mpr ⟨trivial, ih⟩

theorem TextEdits.lettered (h : TextEdits inPlural text edits rest) :
    ∀ edit ∈ edits, edit.Lettered := by
  induction h with
  | stop _ => exact fun _ there => absurd there List.not_mem_nil
  | doubled _ ih =>
      exact List.forall_mem_cons.mpr ⟨Edit.lettered_gone _, List.forall_mem_cons.mpr ⟨trivial, ih⟩⟩
  | quoted _ literal _ ih =>
      exact List.forall_mem_cons.mpr ⟨Edit.lettered_gone _,
        List.forall_mem_append.mpr ⟨literal.lettered, ih⟩⟩
  | apostrophe _ _ ih | char _ _ _ ih => exact List.forall_mem_cons.mpr ⟨trivial, ih⟩

mutual
/-- Edits of a message put in nothing but letters and digits. -/
theorem Edited.lettered {depth : Nat} {inPlural : Bool} {text rest : List Char} {message : Message}
    {edits : List Edit} : Edited context depth inPlural text message edits rest →
      ∀ edit ∈ edits, edit.Lettered
  | .last run _ => run.lettered
  | .number run filling others =>
      List.forall_mem_append.mpr ⟨run.lettered, List.forall_mem_cons.mpr ⟨filling.2, others.lettered⟩⟩
  | .argument run argument others =>
      List.forall_mem_append.mpr
        ⟨List.forall_mem_append.mpr ⟨run.lettered, argument.lettered⟩, others.lettered⟩

theorem ArgumentEdited.lettered {depth : Nat} {inPlural : Bool} {opened rest : List Char}
    {element : Element} {edits : List Edit} :
    ArgumentEdited context depth inPlural opened element edits rest → ∀ edit ∈ edits, edit.Lettered
  | .placeholder _ _ filling => List.forall_mem_singleton.mpr filling.2
  | .choice _ _ _ _ _ _ _ _ _ choice =>
      List.forall_mem_append.mpr ⟨List.forall_mem_cons.mpr ⟨Edit.lettered_gone _, choice.lettered⟩,
        List.forall_mem_singleton.mpr (Edit.lettered_gone _)⟩

theorem ChoiceEdited.lettered {depth : Nat} {inPlural : Bool} {name kind : String}
    {text before after rest : List Char} {element : Element} {edits : List Edit} :
    ChoiceEdited context depth inPlural name kind text element before edits after rest →
      ∀ edit ∈ edits, edit.Lettered
  | .select list _ | .plural _ list _ | .ordinal _ list _ => list.lettered

theorem CaseEdited.lettered {depth : Nat} {inPlural : Bool} {categories : Option (List String)}
    {text before after rest : List Char} {cases : Cases} {edits : List Edit} :
    CaseEdited context depth inPlural categories text cases before edits after rest →
      ∀ edit ∈ edits, edit.Lettered
  | .here _ _ _ _ body _ => body.lettered
  | .later _ _ _ _ _ others => others.lettered
end

end MessageCatalog.Message
