import MessageCatalog.Proofs.Bundle.Rendered
import MessageCatalog.Proofs.Message.Exact
import MessageCatalog.Proofs.Sheet.RoundTrip

/-!
# MessageCatalog.Proofs.Bundle.Wrapped -- localized texts without placeholders as functions

A localized text without placeholders is written as a literal, or on request as a function that
returns one. The literal holds the text as it is; the function holds what the text says as a
message, in which two apostrophes are one, an apostrophe may quote a closing brace, and a closing
brace that is not quoted is a fault. Where a text has none of these marks both are the same literal.
-/

namespace MessageCatalog.Message

open MessageCatalog.Script

variable {engine : Engine} {content text : List Char}

/-! ## Messages that are only text -/

/-- A text that says as a message just what it says as a text: it has no braces, and no two
apostrophes next to each other. -/
structure Bare (content : List Char) : Prop where
  opening : '\x7b' ∉ content
  closing : '\x7d' ∉ content
  single : ¬['\'', '\''] <:+: content

theorem Bare.tail {c : Char} (h : Bare (c :: content)) : Bare content where
  opening := fun there => h.opening (List.mem_cons_of_mem c there)
  closing := fun there => h.closing (List.mem_cons_of_mem c there)
  single := fun there => h.single (there.trans (List.suffix_cons c content).isInfix)

/-- Outside the cases of a choice only braces are tokens. -/
theorem Bare.ordinary (h : Bare content) {c : Char} (there : c ∈ content) : ¬Special false c := by
  rintro (rfl | rfl | ⟨-, inside⟩)
  · exact h.opening there
  · exact h.closing there
  · cases inside

theorem Bare.textRun (h : Bare content) : TextRun false content content [] := by
  induction content with
  | nil => exact .stop nofun
  | cons c rest ih =>
      have behind : TextRun false rest rest [] := ih h.tail
      by_cases apostrophe : c = '\''
      · subst apostrophe
        refine .apostrophe (fun d front => ?_) behind
        obtain ⟨others, rfl⟩ := List.head?_eq_some_iff.mp front
        refine ⟨?_, h.tail.ordinary List.mem_cons_self⟩
        rintro rfl
        exact h.single ⟨[], others, rfl⟩
      · exact .char apostrophe (h.ordinary List.mem_cons_self) behind

theorem parse_of_textRun (run : TextRun false content text []) :
    engine.parse content = .ok (withText text []) :=
  (parse_iff_parseText.trans parseText_iff).mpr (.last run nofun)

/-- Without an opening brace a message is one run of text. -/
theorem exists_textRun (static : '\x7b' ∉ content) {message : Message}
    (parsed : engine.parse content = .ok message) : ∃ text, TextRun false content text [] := by
  have derived : Elements engine.context 0 false content message [] :=
    (parse_iff_parseText.trans parseText_iff).mp parsed
  cases derived with
  | last run => exact ⟨_, run⟩
  | number run _ =>
      -- a number sign is a token only inside the cases of a choice
      rcases run.stops '#' rfl with other | other | ⟨-, inside⟩
      · exact absurd other (by decide)
      · exact absurd other (by decide)
      · cases inside
  | argument run _ _ => exact absurd (run.suffix.subset List.mem_cons_self) static

theorem textRun_unique {other : List Char} (run : TextRun false content text [])
    (again : TextRun false content other []) : text = other := by
  have same := (readText_complete run).symm.trans (readText_complete again)
  injection same with same
  injection same

/-- A function that returns the value of an expression. -/
def returning (expression : List Char) : List Char :=
  "function(d)\x7breturn ".toList ++ expression ++ ";\x7d".toList

theorem messageScript_withText (locale : String) (text : List Char) :
    messageScript locale (withText text []) = literal text := by
  cases text with
  | nil => simp only [withText, List.isEmpty_nil, if_true, messageScript, literal, escape, quote,
      List.flatMap_nil, List.singleton_append]
  | cons c rest =>
      simp only [withText, List.isEmpty_cons, Bool.false_eq_true, if_false, messageScript,
        moreElements, List.append_nil, textLiteral, String.toList_ofList]

/-- A message that is only text becomes a function that returns the text. -/
theorem compile_of_textRun (run : TextRun false content text []) :
    engine.compile content = .ok (returning (literal text)) := by
  have script : compile engine.locale (withText text []) = returning (literal text) := by
    unfold compile
    rw [messageScript_withText]
    rfl
  unfold Engine.compile
  rw [parse_of_textRun run, ← script]
  rfl

end MessageCatalog.Message

namespace MessageCatalog.Bundle

open MessageCatalog.Config MessageCatalog.Message MessageCatalog.Report MessageCatalog.Script

open MessageCatalog.Sheet (oneKey plainEngine)

variable {options : Options} {engine : Engine} {file : Option String}

/-! ## One message -/

/-- The options with functions for all localized texts, or only for those with placeholders. -/
def wrapping (options : Options) (wrap : Bool) : Options := { options with wrapStatic := wrap }

/-- The quoted key of a message and the content that is compiled. -/
def prepare (options : Options) (key value : List Char) : Except Problem (List Char × List Char) := do
  let cleaned ← (Content.clean options key value true).mapError markupProblem
  let content ← (Content.keepPlain value cleaned.content).mapError markupProblem
  return (Script.quote cleaned.key, content)

/-- The script of a message whose content is known, if it needs one. -/
def scriptFor (options : Options) (engine : Engine) (key value content : List Char) :
    Except Problem (Option (List Char)) :=
  if needsFunction options key content then
    ((engine.compile content).mapError messageProblem).map some
  else if key = value then .ok none
  else .ok (some (literal content))

theorem compileMessage_eq (options : Options) (engine : Engine) (key value : List Char) :
    compileMessage options engine key value =
      (prepare options key value).bind fun (name, content) =>
        (scriptFor options engine key value content).map (Option.map (name, ·)) := by
  unfold compileMessage prepare
  cases (Content.clean options key value true).mapError markupProblem with
  | error why => rfl
  | ok cleaned =>
      simp only [bind, Except.bind]
      cases (Content.keepPlain value cleaned.content).mapError markupProblem with
      | error why => rfl
      | ok content =>
          simp only [pure, Except.pure, scriptFor]
          split
          · cases (engine.compile content).mapError messageProblem <;> rfl
          · by_cases same : key = value
            · simp [same, Except.map]
            · simp [same, Except.map]

/-- What is compiled does not depend on the form in which it is written. -/
theorem prepare_wrapping (wrap : Bool) : prepare (wrapping options wrap) = prepare options := rfl

/-- The content is compared with the key as the stored text is. -/
def Fair (key value content : List Char) : Prop := key = value ↔ key = content

/-- How the scripts of a message relate: neither form has one, or both have the same function, or
one has a literal and the other a function that returns what the content says as a message. -/
inductive SameForm (engine : Engine) (content : List Char) : Option String → Option String → Prop where
  | neither : SameForm engine content none none
  | function {script : List Char} : '\x7b' ∈ content → engine.compile content = .ok script →
      SameForm engine content (some (String.ofList script)) (some (String.ofList script))
  | static {text : List Char} : '\x7b' ∉ content → TextRun false content text [] →
      (Bare content → text = content) →
      SameForm engine content (some (String.ofList (literal content)))
        (some (String.ofList (returning (literal text))))

/-- Scripts of a message come before those that were there. -/
theorem SameForm.or {content : List Char} {plain wrapped : Option String}
    (h : SameForm engine content plain wrapped) (before before' : Option String) :
    (plain = none ∧ wrapped = none) ∨
      SameForm engine content (plain.or before) (wrapped.or before') := by
  cases h with
  | neither => exact Or.inl ⟨rfl, rfl⟩
  | function placeholder compiled => exact Or.inr (.function placeholder compiled)
  | static placeholder run bare => exact Or.inr (.static placeholder run bare)

/-- Both forms of a bare content have the same literal. -/
theorem SameForm.of_bare {content : List Char} {plain wrapped : Option String}
    (h : SameForm engine content plain wrapped) (bare : Bare content) :
    (plain = none ∧ wrapped = none) ∨
      (plain = some (String.ofList (literal content)) ∧
        wrapped = some (String.ofList (returning (literal content)))) := by
  cases h with
  | neither => exact Or.inl ⟨rfl, rfl⟩
  | function placeholder _ => exact absurd placeholder bare.opening
  | static _ _ same => exact Or.inr ⟨rfl, by rw [same bare]⟩

/-- The script of a message under a name, if it has this name. -/
def scriptUnder (options : Options) (engine : Engine) (name key value : String) : Option String :=
  match compileMessage options engine key.toList value.toList with
  | .ok (some (found, script)) =>
    if String.ofList found = name then some (String.ofList script) else none
  | _ => none

theorem get?_addMessage (done : CompiledMessages × Log) (name key value : String) :
    (addMessage options engine file done key value).1.get? name =
      (scriptUnder options engine name key value).or (done.1.get? name) := by
  unfold addMessage scriptUnder
  cases compileMessage options engine key.toList value.toList with
  | error problem => rfl
  | ok written =>
      cases written with
      | none => rfl
      | some pair =>
          obtain ⟨found, script⟩ := pair
          show (done.1.set (String.ofList found) (String.ofList script)).get? name = _
          rw [Keyed.get?_set]
          by_cases same : String.ofList found = name
          · simp [same]
          · simp [same, Ne.symm same]

/-- The script of a message under its own name. -/
theorem scriptUnder_of_prepare {name key value : String} {content : List Char}
    (prepared : prepare options key.toList value.toList = .ok (name.toList, content)) :
    scriptUnder options engine name key value =
      (scriptFor options engine key.toList value.toList content).toOption.join.map String.ofList := by
  unfold scriptUnder
  rw [compileMessage_eq, prepared]
  simp only [Except.bind]
  cases scriptFor options engine key.toList value.toList content with
  | error why => rfl
  | ok script =>
      cases script with
      | none => rfl
      | some script => exact if_pos String.ofList_toList

/-- A message has no script under another name. -/
theorem scriptUnder_of_other {name key value : String}
    (other : ∀ content, prepare options key.toList value.toList ≠ .ok (name.toList, content)) :
    scriptUnder options engine name key value = none := by
  unfold scriptUnder
  rw [compileMessage_eq]
  cases prepared : prepare options key.toList value.toList with
  | error why => rfl
  | ok pair =>
      obtain ⟨found, content⟩ := pair
      have apart : String.ofList found ≠ name := by
        rintro rfl
        exact other content (by rw [prepared, String.toList_ofList])
      simp only [Except.bind]
      cases scriptFor options engine key.toList value.toList content with
      | error why => rfl
      | ok script =>
          cases script with
          | none => rfl
          | some script => exact if_neg apart

/-- Both forms of a message that is compared fairly and whose static content is a message. -/
theorem sameForm_scriptFor (options : Options) {key value content : List Char}
    (even : '\x7b' ∉ content → Fair key value content ∧
      (key ≠ content → (engine.parse content).isOk = true)) :
    SameForm engine content
      ((scriptFor (wrapping options false) engine key value content).toOption.join.map String.ofList)
      ((scriptFor (wrapping options true) engine key value content).toOption.join.map
        String.ofList) := by
  unfold scriptFor
  by_cases placeholder : '\x7b' ∈ content
  · have function : ∀ wrap, needsFunction (wrapping options wrap) key content = true := by
      intro wrap
      simp [needsFunction, placeholder]
    rw [if_pos (function false), if_pos (function true)]
    cases compiled : engine.compile content with
    | error why => exact .neither
    | ok script => exact .function placeholder compiled
  · obtain ⟨fair, isMessage⟩ := even placeholder
    have plain : needsFunction (wrapping options false) key content = false := by
      simp [needsFunction, placeholder, wrapping]
    by_cases same : key = value
    · have own : needsFunction (wrapping options true) key content = false := by
        simp [needsFunction, placeholder, fair.mp same]
      rw [plain, own, if_pos same]
      exact .neither
    · have changed : key ≠ content := fun e => same (fair.mpr e)
      have wrapped : needsFunction (wrapping options true) key content = true := by
        simp [needsFunction, wrapping, changed]
      have isMessage := isMessage changed
      cases parsed : engine.parse content with
      | error why =>
          rw [parsed] at isMessage
          cases isMessage
      | ok message =>
          obtain ⟨text, run⟩ := exists_textRun placeholder parsed
          rw [plain, wrapped, if_pos rfl, if_neg (by simp), if_neg same, compile_of_textRun run]
          exact .static placeholder run fun bare => textRun_unique run bare.textRun

/-! ## All messages of a store -/

/-- A message of a store by the name under which it is compiled and the content that is compiled. -/
def Named (options : Options) (store : Store) (name key : String) (content : List Char) : Prop :=
  key ∈ store.keys ∧
    prepare options key.toList (valueOf store key).toList = .ok (name.toList, content)

/-- Messages of a store put into script one after the other. -/
def addMessages (options : Options) (engine : Engine) (file : Option String) (store : Store)
    (done : CompiledMessages × Log) (keys : List String) : CompiledMessages × Log :=
  keys.foldl (fun done key => addMessage options engine file done key (valueOf store key)) done

theorem compileStore_messages (options : Options) (engine : Engine) (store : Store)
    (file : Option String) :
    (compileStore options engine store file).1 =
      (addMessages options engine file store (Keyed.empty, []) store.sortedKeys).1 := rfl

theorem compileStore_log (options : Options) (engine : Engine) (store : Store)
    (file : Option String) :
    (addMessages options engine file store (Keyed.empty, []) store.sortedKeys).2 <+:
      (compileStore options engine store file).2 := List.prefix_append _ _

theorem prefix_addMessage (done : CompiledMessages × Log) (key value : String) :
    done.2 <+: (addMessage options engine file done key value).2 := by
  unfold addMessage
  split
  · exact List.prefix_refl _
  · exact List.prefix_refl _
  · exact List.prefix_append _ _

theorem prefix_addMessages {store : Store} (done : CompiledMessages × Log) (keys : List String) :
    done.2 <+: (addMessages options engine file store done keys).2 := by
  induction keys generalizing done with
  | nil => exact List.prefix_refl _
  | cons key rest ih => exact (prefix_addMessage done key _).trans (ih _)

/-- The fault of a message is in the log. -/
theorem warning_mem_addMessages {store : Store} {key : String} {problem : Problem}
    (fault : compileMessage options engine key.toList (valueOf store key).toList = .error problem)
    {keys : List String} (there : key ∈ keys) (done : CompiledMessages × Log) :
    problem.warning key (some engine.locale) file ∈
      (addMessages options engine file store done keys).2 := by
  induction keys generalizing done with
  | nil => cases there
  | cons first rest ih =>
      rcases List.mem_cons.mp there with rfl | there
      · refine (prefix_addMessages _ rest).subset ?_
        show _ ∈ (addMessage options engine file done key (valueOf store key)).2
        unfold addMessage
        rw [fault]
        exact List.mem_append_right _ List.mem_cons_self
      · exact ih there _

/-- A name under which no message has a script stays empty. -/
theorem get?_addMessages_none {store : Store} {name : String} {keys : List String}
    (none_of : ∀ key ∈ keys, scriptUnder options engine name key (valueOf store key) = none)
    {done : CompiledMessages × Log} (start : done.1.get? name = none) :
    (addMessages options engine file store done keys).1.get? name = none := by
  have step : ∀ done : CompiledMessages × Log, done.1.get? name = none → ∀ key ∈ keys,
      (addMessage options engine file done key (valueOf store key)).1.get? name = none := by
    intro done empty key there
    rw [get?_addMessage, none_of key there, empty, Option.none_or]
  exact List.foldlRecOn (motive := fun done : CompiledMessages × Log => done.1.get? name = none)
    keys _ start step

/-- Localized texts as functions differ in their form only. Take a name such that each message under
it is compared with its key as its content is, and whose static contents are messages. Then both
forms have the name or neither has; where the content has a placeholder both have the same function;
where it has none one has the literal of the content, and the other a function that returns the
literal of the text that the content says as a message, which is the content itself when it is bare;
and bare contents are messages. A static content other than its key that is no message is reported
and left out. -/
theorem compileStore_wrapping (options : Options) (engine : Engine) (store : Store)
    (file : Option String) :
    (∀ name,
      (∀ key content, Named options store name key content → '\x7b' ∉ content →
        Fair key.toList (valueOf store key).toList content ∧
          (key.toList ≠ content → (engine.parse content).isOk = true)) →
      ((compileStore (wrapping options false) engine store file).1.get? name = none ∧
        (compileStore (wrapping options true) engine store file).1.get? name = none) ∨
      ∃ key content, Named options store name key content ∧ SameForm engine content
        ((compileStore (wrapping options false) engine store file).1.get? name)
        ((compileStore (wrapping options true) engine store file).1.get? name)) ∧
    (∀ content, Bare content → (engine.parse content).isOk = true) ∧
    ∀ name key content why, Named options store name key content → '\x7b' ∉ content →
      key.toList ≠ content → engine.parse content = .error why →
      (messageProblem why).warning key (some engine.locale) file ∈
        (compileStore (wrapping options true) engine store file).2 ∧
      ((∀ other content, Named options store name other content → other = key) →
        (compileStore (wrapping options true) engine store file).1.get? name = none) := by
  refine ⟨fun name even => ?_, fun content bare => ?_,
    fun name key content why named static changed fault => ?_⟩
  · -- one message after the other, the last script under the name counts in both forms
    rw [compileStore_messages, compileStore_messages]
    refine List.foldl_rel (r := fun plain wrapped : CompiledMessages × Log =>
      (plain.1.get? name = none ∧ wrapped.1.get? name = none) ∨
        ∃ key content, Named options store name key content ∧
          SameForm engine content (plain.1.get? name) (wrapped.1.get? name))
      (Or.inl ⟨rfl, rfl⟩) ?_
    intro key there plain wrapped before
    rw [get?_addMessage, get?_addMessage]
    by_cases prepared : ∃ content, Named options store name key content
    · obtain ⟨content, named⟩ := prepared
      rw [scriptUnder_of_prepare (prepare_wrapping false ▸ named.2),
        scriptUnder_of_prepare (prepare_wrapping true ▸ named.2)]
      rcases (sameForm_scriptFor options (even key content named)).or _ _ with ⟨plain, wrapped⟩ | form
      · rw [plain, wrapped, Option.none_or, Option.none_or]
        exact before
      · exact Or.inr ⟨key, content, named, form⟩
    · have other : ∀ wrap, scriptUnder (wrapping options wrap) engine name key
          (valueOf store key) = none := by
        intro wrap
        refine scriptUnder_of_other fun content found => prepared ⟨content, ?_, found⟩
        exact Keyed.mem_ascending.mp there
      rw [other false, other true, Option.none_or, Option.none_or]
      exact before
  · rw [parse_of_textRun bare.textRun]
    rfl
  · have compiled : scriptFor (wrapping options true) engine key.toList (valueOf store key).toList
        content = .error (messageProblem why) := by
      have wrapped : needsFunction (wrapping options true) key.toList content = true := by
        simp [needsFunction, wrapping, changed]
      rw [scriptFor, if_pos wrapped, Engine.compile, fault]
      rfl
    have reported : compileMessage (wrapping options true) engine key.toList
        (valueOf store key).toList = .error (messageProblem why) := by
      rw [compileMessage_eq, prepare_wrapping, named.2]
      simp only [Except.bind, compiled]
      rfl
    refine ⟨(compileStore_log _ _ _ _).subset
      (warning_mem_addMessages reported (Keyed.mem_ascending.mpr named.1) _), fun only => ?_⟩
    rw [compileStore_messages]
    refine get?_addMessages_none (fun other there => ?_) rfl
    by_cases prepared : ∃ content, Named options store name other content
    · obtain ⟨content, found⟩ := prepared
      obtain rfl := only other content found
      rw [scriptUnder_of_prepare (prepare_wrapping true ▸ named.2), compiled]
      rfl
    · refine scriptUnder_of_other fun content found => prepared ⟨content, ?_, found⟩
      exact Keyed.mem_ascending.mp there

/-! ## A store of one message -/

theorem valueOf_oneKey (key value : String) : valueOf (oneKey key value) key = value := by
  rw [valueOf, oneKey, Keyed.get?_ofList (by simp), List.lookup_cons_self]
  rfl

theorem get?_compileStore_oneKey (name key value : String) :
    (compileStore options engine (oneKey key value) file).1.get? name =
      scriptUnder options engine name key value := by
  have keys : (oneKey key value).sortedKeys = [key] :=
    Keyed.ascending_of_pairwise (List.pairwise_singleton _ _)
  rw [compileStore_messages, keys]
  show (addMessage options engine file (Keyed.empty, []) key (valueOf _ key)).1.get? name = _
  rw [get?_addMessage, valueOf_oneKey]
  exact Option.or_none

/-- The name under which the key `k` is compiled. -/
def nameOfK : String := "\"k\""

/-- A localized text that is no message is in one form and not in the other, and a literal with two
apostrophes is not the literal of the function. -/
theorem wrapping_changes :
    ¬(∀ (options : Options) (engine : Engine) (store : Store) (file : Option String) (name : String),
      name ∈ (compileStore (wrapping options false) engine store file).1.keys →
        name ∈ (compileStore (wrapping options true) engine store file).1.keys) ∧
    ¬(∀ (options : Options) (engine : Engine) (store : Store) (file : Option String) (name : String)
      (content : List Char),
      (compileStore (wrapping options false) engine store file).1.get? name =
          some (String.ofList (literal content)) →
        (compileStore (wrapping options true) engine store file).1.get? name =
          some (String.ofList (returning (literal content)))) := by
  constructor
  · intro same
    have unbalanced := same smallOptions plainEngine (oneKey "k" "a\x7db") none nameOfK
      ((Keyed.mem_keys_iff _).mpr ⟨"\"a\x7db\"", by decide +kernel⟩)
    rw [Keyed.mem_keys_iff] at unbalanced
    obtain ⟨script, found⟩ := unbalanced
    have missing : (compileStore (wrapping smallOptions true) plainEngine
        (oneKey "k" "a\x7db") none).1.get? nameOfK = none := by decide +kernel
    rw [missing] at found
    cases found
  · intro same
    have plain : (compileStore (wrapping smallOptions false) plainEngine
        (oneKey "k" "it''s") none).1.get? nameOfK =
          some (String.ofList (literal "it''s".toList)) := by decide +kernel
    have prepared : prepare (wrapping smallOptions true) "k".toList "it''s".toList =
        .ok (nameOfK.toList, "it''s".toList) := by decide +kernel
    have run : TextRun false "it''s".toList "it's".toList [] := readText_sound (by decide +kernel)
    have wrapped := same _ _ _ _ _ _ plain
    rw [get?_compileStore_oneKey, scriptUnder_of_prepare prepared, scriptFor, if_pos (by decide),
      compile_of_textRun run] at wrapped
    have one : returning (literal "it's".toList) = returning (literal "it''s".toList) :=
      String.ofList_injective (Option.some.inj wrapped)
    revert one
    decide

theorem named_oneKey {name key value other : String} {content content' : List Char}
    (prepared : prepare options key.toList value.toList = .ok (name.toList, content))
    (named : Named options (oneKey key value) name other content') :
    other = key ∧ content' = content := by
  obtain ⟨there, found⟩ := named
  obtain rfl : other = key := List.mem_singleton.mp there
  rw [valueOf_oneKey, prepared] at found
  injection found with found
  injection found with _ same
  exact ⟨rfl, same.symm⟩

/-- A greeting in both forms, and a text that is no message. -/
theorem compileStore_wrapping_greeting :
    (compileStore (wrapping smallOptions false) plainEngine (oneKey "k" "Hallo") none).1.get?
        nameOfK = some (String.ofList (literal "Hallo".toList)) ∧
    (compileStore (wrapping smallOptions true) plainEngine (oneKey "k" "Hallo") none).1.get?
        nameOfK = some (String.ofList (returning (literal "Hallo".toList))) ∧
    (∃ why : ParseError, (messageProblem why).warning "k" (some "de") none ∈
      (compileStore (wrapping smallOptions true) plainEngine (oneKey "k" "a\x7db") none).2) ∧
    (compileStore (wrapping smallOptions true) plainEngine (oneKey "k" "a\x7db") none).1.get?
        nameOfK = none := by
  have greeting : prepare smallOptions "k".toList "Hallo".toList =
      .ok (nameOfK.toList, "Hallo".toList) := by decide +kernel
  have brace : prepare smallOptions "k".toList "a\x7db".toList =
      .ok (nameOfK.toList, "a\x7db".toList) := by decide +kernel
  have bare : Bare "Hallo".toList := by
    exact ⟨by decide, by decide, by decide⟩
  have plain : (compileStore (wrapping smallOptions false) plainEngine
      (oneKey "k" "Hallo") none).1.get? nameOfK =
        some (String.ofList (literal "Hallo".toList)) := by decide +kernel
  obtain ⟨forms, isMessage, -⟩ :=
    compileStore_wrapping smallOptions plainEngine (oneKey "k" "Hallo") none
  obtain ⟨-, -, left⟩ := compileStore_wrapping smallOptions plainEngine (oneKey "k" "a\x7db") none
  have even : ∀ key content, Named smallOptions (oneKey "k" "Hallo") nameOfK key content →
      '\x7b' ∉ content →
      Fair key.toList (valueOf (oneKey "k" "Hallo") key).toList content ∧
        (key.toList ≠ content → (plainEngine.parse content).isOk = true) := by
    intro key content named _
    obtain ⟨rfl, rfl⟩ := named_oneKey greeting named
    rw [valueOf_oneKey]
    exact ⟨Iff.rfl, fun _ => isMessage _ bare⟩
  refine ⟨plain, ?_, ?_⟩
  · rcases forms nameOfK even with ⟨none, -⟩ | ⟨key, content, named, form⟩
    · rw [plain] at none
      cases none
    · obtain ⟨rfl, rfl⟩ := named_oneKey greeting named
      rcases form.of_bare bare with ⟨none, -⟩ | ⟨-, wrapped⟩
      · rw [plain] at none
        cases none
      · exact wrapped
  · have fault : (plainEngine.parse "a\x7db".toList).isOk = false := by decide +kernel
    cases parsed : plainEngine.parse "a\x7db".toList with
    | ok message =>
        rw [parsed] at fault
        cases fault
    | error why =>
        have named : Named smallOptions (oneKey "k" "a\x7db") nameOfK "k" "a\x7db".toList :=
          ⟨List.mem_cons_self, by rw [valueOf_oneKey, brace]⟩
        obtain ⟨reported, alone⟩ := left nameOfK "k" _ why named (by decide) (by decide) parsed
        exact ⟨⟨why, reported⟩, alone fun other content found => (named_oneKey brace found).1⟩

end MessageCatalog.Bundle
