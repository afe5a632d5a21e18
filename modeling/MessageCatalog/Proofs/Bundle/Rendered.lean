import MessageCatalog.Proofs.Bundle.Filled
import MessageCatalog.Proofs.Keyed
import MessageCatalog.Proofs.Message.Lossless

/-!
# MessageCatalog.Proofs.Bundle.Rendered -- compiled messages stay in their script block

Every text of a message, of a key and of a locale reaches the script through a literal. What is
between the literals comes from the compiler: calls, digits and marks. So the script of a store is
made of code without quotes or backslashes and of literals that are read as texts, and no character
of it could end the literal, the script or the page that it stands in.

A store may hold surrogates that stand alone, which are written as they are. The reader of literals
refuses them beside an escape, so a literal that has both is none that it reads.
-/

namespace MessageCatalog.Message

open MessageCatalog.Number MessageCatalog.Script MessageCatalog.Text

variable {locale : String}

/-! ## The script of a message -/

theorem plain_of_isAsciiDigit {c : Char} (digit : isAsciiDigit c = true) : Plain c := by
  by_contra other
  have hex := (lt_of_not_plain other).2
  simp [isHexDigit, digit] at hex

theorem splits_textLiteral (value : String) : Splits Plain (textLiteral value) := .literal _

theorem splits_offset (offset : Int) : Splits Plain (toString offset).toList := by
  have digits : Splits Plain (Nat.toDigits 10 offset.natAbs) :=
    .code fun c there => plain_of_isAsciiDigit ((isDigits_toDigits offset.natAbs).2 c there)
  have minus : Splits Plain ['-'] := .known (by decide)
  rw [toList_toString_int]
  split
  · exact minus.append digits
  · exact digits

theorem splits_comma : Splits Plain [','] := .known (by decide)

mutual
-- One theorem for each function that writes a script, by the recursion of that function.
theorem Element.splits : (element : Element) → Splits Plain (element.script locale)
  | .text value => by
      rw [Element.script]
      exact splits_textLiteral value
  | .argument name => by
      rw [Element.script]
      exact Splits.known (by decide)
        |>.append (splits_textLiteral name)
        |>.append (.known (by decide))
  | .number => by
      rw [Element.script]
      exact .known (by decide)
  | .format name kind style => by
      have written : Splits Plain (styleScript style) := by
        cases style with
        | none => exact .known (by decide)
        | some style => exact splits_textLiteral style
      rw [script_format]
      exact Splits.known (by decide)
        |>.append (splits_textLiteral name) |>.append splits_comma
        |>.append (splits_textLiteral kind) |>.append splits_comma
        |>.append written |>.append splits_comma
        |>.append (splits_textLiteral locale)
        |>.append (.known (by decide))
  | .select name cases => by
      rw [Element.script]
      exact Splits.known (by decide)
        |>.append (splits_textLiteral name) |>.append splits_comma
        |>.append (splits_casesScript (.known (by decide)) cases)
        |>.append (.known (by decide))
  | .plural name offset ordinal cases => by
      have flag : Splits Plain (if ordinal then "true" else "false").toList := by
        cases ordinal with
        | false | true => exact .known (by decide)
      rw [Element.script]
      exact Splits.known (by decide)
        |>.append (splits_textLiteral name) |>.append splits_comma
        |>.append (splits_offset offset) |>.append splits_comma
        |>.append (splits_textLiteral locale) |>.append splits_comma
        |>.append flag |>.append splits_comma
        |>.append (splits_casesScript (.known (by decide)) cases)
        |>.append (.known (by decide))

theorem splits_casesScript {parameters : List Char} (named : Splits Plain parameters) :
    (cases : Cases) → Splits Plain (casesScript locale parameters cases)
  | [] => by
      rw [casesScript]
      exact .known (by decide)
  | (key, body) :: rest => by
      rw [casesScript]
      exact Splits.cons (by decide) (splits_caseScript named key body)
        |>.append (splits_moreCases named rest)
        |>.append (.known (by decide))

theorem splits_moreCases {parameters : List Char} (named : Splits Plain parameters) :
    (cases : Cases) → Splits Plain (moreCases locale parameters cases)
  | [] => by
      rw [moreCases]
      exact .known (by decide)
  | (key, body) :: rest => by
      rw [moreCases]
      exact Splits.cons (by decide) (splits_caseScript named key body)
        |>.append (splits_moreCases named rest)

theorem splits_caseScript {parameters : List Char} (named : Splits Plain parameters)
    (key : String) (body : Message) : Splits Plain (caseScript locale parameters key body) := by
  rw [caseScript]
  exact splits_textLiteral key
    |>.append (.known (by decide)) |>.append named |>.append (.known (by decide))
    |>.append (splits_messageScript body)
    |>.append (.known (by decide))

theorem splits_messageScript : (message : Message) → Splits Plain (messageScript locale message)
  | [] => by
      rw [messageScript]
      exact splits_textLiteral ""
  | element :: rest => by
      have own : Splits Plain (element.script locale) := element.splits
      have others : Splits Plain (moreElements locale rest) := splits_moreElements rest
      cases element with
      | text value =>
          rw [messageScript]
          exact (splits_textLiteral value).append others
      | argument | number | format | select | plural =>
          rw [messageScript]
          · exact (splits_textLiteral "").append (.cons (by decide) own) |>.append others
          · nofun

theorem splits_moreElements : (message : Message) → Splits Plain (moreElements locale message)
  | [] => by
      rw [moreElements]
      exact .known (by decide)
  | element :: rest => by
      rw [moreElements]
      exact Splits.cons (by decide) element.splits |>.append (splits_moreElements rest)
end

theorem splits_compile (message : Message) : Splits Plain (compile locale message) := by
  unfold compile
  exact Splits.known (by decide)
    |>.append (splits_messageScript message)
    |>.append (.known (by decide))

end MessageCatalog.Message

namespace MessageCatalog.Bundle

open MessageCatalog.Config MessageCatalog.Message MessageCatalog.Script MessageCatalog.Text

variable {options : Options} {engine : Engine}

/-! ## Compiled messages -/

theorem clean_key {key value : List Char} {cleaned : Content.Cleaned}
    (h : Content.clean options key value true = .ok cleaned) :
    ∃ small, Content.shrink (Content.keyMinifier options) key = .ok small ∧
      cleaned.key = Script.escape small := by
  obtain ⟨small, shrunk, afterKey⟩ := exists_bind_eq_ok h
  obtain ⟨_, -, afterContent⟩ := exists_bind_eq_ok afterKey
  obtain ⟨_, -, last⟩ := exists_bind_eq_ok afterContent
  cases last
  exact ⟨small, shrunk, rfl⟩

/-- The name of a compiled message is a literal, its script is made of literals and code. -/
theorem compileMessage_splits {key value name script : List Char}
    (h : compileMessage options engine key value = .ok (some (name, script))) :
    Splits Plain name ∧ Splits Plain script := by
  obtain ⟨cleaned, clean, afterClean⟩ := exists_bind_eq_ok h
  obtain ⟨content, -, last⟩ := exists_bind_eq_ok afterClean
  obtain ⟨text, -, written⟩ := clean_key (mapError_ok.mp clean)
  have named : Splits Plain (Script.quote cleaned.key) := written ▸ .literal text
  split at last
  · obtain ⟨function, compiled, done⟩ := exists_bind_eq_ok last
    cases done
    rw [mapError_ok, Engine.compile] at compiled
    cases read : engine.parse content with
    | error fault =>
        rw [read] at compiled
        cases compiled
    | ok message =>
        rw [read] at compiled
        cases compiled
        exact ⟨named, splits_compile message⟩
  · split at last
    · cases last
      exact ⟨named, .literal content⟩
    · cases last

/-- The names and scripts of compiled messages are made of literals and code. -/
def Sound (messages : CompiledMessages) : Prop :=
  ∀ name script, messages.get? name = some script →
    Splits Plain name.toList ∧ Splits Plain script.toList

theorem addMessage_sound {file : Option String} {done : CompiledMessages × Report.Log}
    (h : Sound done.1) (key value : String) :
    Sound (addMessage options engine file done key value).1 := by
  unfold addMessage
  split
  · next name script compiled =>
      intro other found got
      rw [Keyed.get?_set] at got
      split at got
      · next same =>
          cases got
          subst same
          simpa using compileMessage_splits compiled
      · exact h other found got
  · exact h
  · exact h

theorem compileStore_sound (options : Options) (engine : Engine) (store : Store)
    (file : Option String) : Sound (compileStore options engine store file).1 := by
  have start : Sound Keyed.empty := nofun
  exact List.foldlRecOn (motive := fun done : CompiledMessages × Report.Log => Sound done.1)
    store.sortedKeys _ start fun _ sound key _ => addMessage_sound sound key (valueOf store key)

/-! ## The rendered object -/

/-- The object of sound messages is made of literals and code, and only the code between the messages
has line feeds. -/
theorem Sound.renderCompiled {messages : CompiledMessages} (h : Sound messages) :
    Splits (fun c => Plain c ∨ c = '\n') (renderCompiled messages).toList := by
  rw [Bundle.renderCompiled]
  split
  · exact .known (by decide)
  · have each : ∀ pair ∈ messages.pairs, Splits (fun c => Plain c ∨ c = '\n')
        ("        " ++ pair.1 ++ ": " ++ pair.2).toList := by
      rintro ⟨name, script⟩ there
      obtain ⟨named, written⟩ := h name script (messages.get?_eq_some_iff.mpr there)
      simp only [String.toList_append]
      exact Splits.known (by decide)
        |>.append (named.mono fun _ => .inl) |>.append (.known (by decide))
        |>.append (written.mono fun _ => .inl)
    rw [String.toList_append, String.toList_append, String.toList_intercalate, List.map_map]
    refine Splits.known (by decide) |>.append ?_ |>.append (.known (by decide))
    refine Splits.intercalate (.known (by decide)) fun part there => ?_
    obtain ⟨pair, inside, rfl⟩ := List.mem_map.mp there
    exact each pair inside

/-- Compiled messages cannot end the script that they stand in. Their object has no bracket or
ampersand of markup, no single quote and no control character but the line feeds between the
messages; it is made of code without quotes or backslashes and of double-quoted literals that are
read as texts, in which each backslash starts an escape of two hexadecimal digits. Where characters
of the store stand in for surrogates, only a literal that has one of them beside an escape may be
refused, for a surrogate that stands alone. -/
theorem renderCompiled_safe (options : Options) (engine : Engine) (store : Store)
    (file : Option String) :
    (∀ c ∈ (renderCompiled (compileStore options engine store file).1).toList,
      c ≠ '<' ∧ c ≠ '>' ∧ c ≠ '&' ∧ c ≠ '\'' ∧ (c.toNat < 0x20 → c = '\n')) ∧
    (∀ name script, (compileStore options engine store file).1.get? name = some script →
      ∀ c ∈ name.toList ++ script.toList, 0x20 ≤ c.toNat) ∧
    Splits (fun c => c ≠ '"' ∧ c ≠ '\'' ∧ c ≠ '\\')
      (renderCompiled (compileStore options engine store file).1).toList := by
  have sound := compileStore_sound options engine store file
  have made := sound.renderCompiled
  refine ⟨fun c there => ?_, fun name script found c there => ?_, made.mono fun c => ?_⟩
  · have safe : Plain c → c ≠ '<' ∧ c ≠ '>' ∧ c ≠ '&' ∧ c ≠ '\'' ∧ (c.toNat < 0x20 → c = '\n') := by
      intro plain
      obtain ⟨printed, -, single, -, less, greater, ampersand⟩ := plain_iff.mp plain
      exact ⟨less, greater, ampersand, single, fun control => absurd printed (by omega)⟩
    rcases made.mem there with (plain | rfl) | plain | rfl | rfl
    · exact safe plain
    · decide
    · exact safe plain
    · decide
    · decide
  · obtain ⟨named, written⟩ := sound name script found
    have one : Plain c ∨ Plain c ∨ c = '\\' ∨ c = '"' := by
      rcases List.mem_append.mp there with inName | inScript
      · exact named.mem inName
      · exact written.mem inScript
    rcases one with plain | plain | rfl | rfl
    · exact (plain_iff.mp plain).1
    · exact (plain_iff.mp plain).1
    · decide
    · decide
  · rintro (plain | rfl)
    · obtain ⟨-, double, single, slash, -⟩ := plain_iff.mp plain
      exact ⟨double, single, slash⟩
    · decide

/-! ## A surrogate beside a quote -/

/-- A store in a file, whose only text is a single quote and a surrogate that stands alone. -/
def surrogateFile : List Char := "\x7b\"k\": \"'\\ud800\"\x7d".toList

/-- The engine of a locale without plural rules. -/
def bareEngine : Engine := ⟨"en", "en", ⟨[], []⟩⟩

/-- The script of a store that is compiled with nothing but literals. -/
def scriptOf (store : Store) : List Char :=
  (renderCompiled (compileStore smallOptions bareEngine store none).1).toList

/-- The store of the file, with a stand-in for the surrogate, is compiled to a script with a literal
that is refused, however the script is taken apart into code without quotes and literals. -/
theorem renderCompiled_surrogateFile :
    ∃ value store, Json.readDocument (fun n => some (standIn n)) surrogateFile = .ok value ∧
      Store.ofJson value = .ok store ∧
      ∀ pieces : List Piece, scriptOf store = pieces.flatMap Piece.text →
        (∀ piece ∈ pieces, match piece with
          | .code text => '"' ∉ text
          | .quoted content => '"' ∉ content) →
        ∃ content, .quoted content ∈ pieces ∧
          decodeMasked (Script.quote content) = .error .loneSurrogate := by
  have refused : (Json.readDocument (fun n => some (standIn n)) surrogateFile).toOption.any
      (fun value => (Store.ofJson value).toOption.any fun store =>
        (contents none (scriptOf store)).any fun content =>
          decide (decodeMasked (Script.quote content) = .error .loneSurrogate)) = true := by
    decide +kernel
  cases read : Json.readDocument (fun n => some (standIn n)) surrogateFile with
  | error fault =>
      rw [read] at refused
      cases refused
  | ok value =>
      cases shaped : Store.ofJson value with
      | error fault =>
          simp only [read, shaped, Except.toOption, Option.any_some] at refused
          cases refused
      | ok store =>
          simp only [read, shaped, Except.toOption, Option.any_some, List.any_eq_true,
            decide_eq_true_eq] at refused
          obtain ⟨content, there, lone⟩ := refused
          refine ⟨value, store, rfl, shaped, fun pieces split apart => ?_⟩
          rw [split] at there
          exact ⟨content, (contents_flatMap apart content).mp there, lone⟩

end MessageCatalog.Bundle
