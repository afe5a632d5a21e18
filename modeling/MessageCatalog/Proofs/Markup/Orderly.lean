import MessageCatalog.Proofs.Markup.Proper
import MessageCatalog.Proofs.Markup.RawText

/-!
# MessageCatalog.Proofs.Markup.Orderly -- the order in which events come

The events of a page are proper, and behind the start tag of an element with raw text there is its
raw text and its end tag, or raw text up to the end of the page. What one pass reads is followed by
what the second pass reads, unless raw text is open: then nothing follows.
-/

namespace MessageCatalog.Markup

open MessageCatalog.Text

/-- Events in an order in which they are read. -/
inductive Orderly : List Located → Prop
  | nil : Orderly []
  /-- An event with markup behind it. -/
  | markup {located : Located} {rest : List Located} :
      located.event.Proper → located.event.mode = .markup → Orderly rest →
        Orderly (located :: rest)
  /-- An element with raw text. -/
  | raw {located closing : Located} {inside rest : List Located} {element : String} :
      located.event.Proper → located.event.mode = .raw element → AllData inside →
        NoClosing element (dataOf inside) → closing.event = .endTag element → Orderly rest →
          Orderly (located :: (inside ++ closing :: rest))
  /-- Raw text that is open at the end. -/
  | unclosed {located : Located} {inside : List Located} {element : String} :
      located.event.mode = .raw element → AllData inside → Orderly (located :: inside)

/-- Raw text stands behind a start tag that does not close itself. -/
theorem Event.mode_eq_raw {event : Event} {element : String} (h : event.mode = .raw element) :
    element ∈ rawTextElements ∧ ∃ attributes, event = .startTag element attributes false := by
  cases event with
  | startTag name attributes selfClosing =>
      rw [Event.mode, modeBehind] at h
      split at h
      · next raw =>
          cases h
          rw [Bool.and_eq_true, Bool.not_eq_true', List.contains_iff_mem] at raw
          exact ⟨raw.2, attributes, by rw [raw.1]⟩
      · cases h
  | _ => cases h

theorem Event.mode_cases (event : Event) :
    event.mode = .markup ∨ ∃ element, event.mode = .raw element := by
  cases event.mode with
  | markup => exact Or.inl rfl
  | raw element => exact Or.inr ⟨element, rfl⟩

/-! ## A pass -/

/-- What is known of a pass: more events may follow what it read unless it ends in raw text, which
does not end in what the pass leaves. -/
structure PassResult.Orderly (r : PassResult) : Prop where
  markup : r.mode = .markup → ∀ more, Markup.Orderly more → Markup.Orderly (r.events ++ more)
  raw : ∀ element, r.mode = .raw element →
    Markup.Orderly r.events ∧ breakWhere (startsEndTagOf element) r.rest = none

/-- A pass that reads nothing more. -/
theorem PassResult.orderly_markup {r : PassResult} (markup : r.mode = .markup)
    (proper : ∀ located ∈ r.events, located.event.Proper ∧ located.event.mode = .markup) :
    r.Orderly where
  markup := by
    intro _ more orderly
    generalize r.events = events at proper
    induction events with
    | nil => exact orderly
    | cons located rest ih =>
        rw [List.forall_mem_cons] at proper
        exact .markup proper.1.1 proper.1.2 (ih proper.2)
  raw := by
    intro element isRaw
    rw [markup] at isRaw
    cases isRaw

theorem PassResult.Orderly.push {r : PassResult} (h : r.Orderly) {event : Event}
    (proper : event.Proper) (markup : event.mode = .markup) (offset : Nat) :
    (r.push offset (some event)).Orderly where
  markup := fun isMarkup more orderly => .markup proper markup (h.markup isMarkup more orderly)
  raw := fun element isRaw =>
    ⟨.markup proper markup (h.raw element isRaw).1, (h.raw element isRaw).2⟩

/-- An element with raw text in front of what is read behind it. -/
theorem PassResult.Orderly.element {r : PassResult} (h : r.Orderly) {event : Event}
    (proper : event.Proper) {element : String} (raw : event.mode = .raw element)
    {inside : List Located} (data : AllData inside) (noClosing : NoClosing element (dataOf inside))
    (offset at' : Nat) :
    (((r.push at' (some (.endTag element))).behind inside).push offset (some event)).Orderly where
  markup := by
    intro isMarkup more orderly
    have rest := h.markup isMarkup more orderly
    have whole : Markup.Orderly
        (⟨offset, event⟩ :: (inside ++ ⟨at', .endTag element⟩ :: (r.events ++ more))) :=
      .raw proper raw data noClosing rfl rest
    have same : (inside ++ ⟨at', .endTag element⟩ :: r.events) ++ more =
        inside ++ ⟨at', .endTag element⟩ :: (r.events ++ more) := by
      rw [List.append_assoc, List.cons_append]
    rw [← same] at whole
    exact whole
  raw := fun other isRaw =>
    ⟨.raw proper raw data noClosing rfl (h.raw other isRaw).1, (h.raw other isRaw).2⟩

theorem pass_orderly (final : Bool) (offset : Nat) (text : List Char) :
    (pass final .markup offset text).Orderly := by
  -- an element with raw text is one step, so the induction is on the length of the text
  induction size : text.length using Nat.strongRecOn generalizing text offset with
  | ind n ih =>
      cases text with
      | nil =>
          rw [pass]
          exact PassResult.orderly_markup rfl (by simp)
      | cons c cs =>
          have own := readPiece_proper final c cs
          rw [pass]
          rw [List.length_cons] at size
          cases read : readPiece final .markup (c :: cs) with
          | stop taken =>
              refine PassResult.orderly_markup rfl fun located there => ?_
              dsimp only at there
              split at there
              · cases there
              · next some =>
                  rw [List.mem_singleton.mp there]
                  exact ⟨fun none => some (by rw [none]; rfl), rfl⟩
          | drop => exact PassResult.orderly_markup rfl (by simp)
          | reject distance why => exact PassResult.orderly_markup rfl (by simp)
          | event taken event mode =>
              rw [read] at own
              have less : (cs.drop taken).length < n := by
                rw [List.length_drop]
                omega
              have later := fun at' => ih _ less at' (cs.drop taken) rfl
              dsimp only
              cases event with
              | none =>
                  obtain rfl : mode = .markup := own
                  exact later _
              | some event =>
                  obtain ⟨proper, rfl⟩ := own
                  rcases event.mode_cases with markup | ⟨element, raw⟩
                  · rw [markup]
                    exact (later _).push proper markup offset
                  · rw [raw]
                    have isRaw := (Event.mode_eq_raw raw).1
                    cases broken : breakWhere (closesRaw element) (cs.drop taken) with
                    | none =>
                        obtain ⟨inside, behind, rest, data, nowhere, same⟩ :=
                          pass_raw_open isRaw final broken (offset + taken + 1)
                        rw [same]
                        refine ⟨by rintro ⟨⟩, ?_⟩
                        rintro other ⟨⟩
                        exact ⟨.unclosed raw data, nowhere⟩
                    | some parts =>
                        obtain ⟨before, after⟩ := parts
                        obtain ⟨inside, at', behind, rest, data, all, left, same⟩ :=
                          pass_raw isRaw final broken (offset + taken + 1)
                        have shorter : rest.length < n := by
                          have split := (breakWhere_eq_some broken).1
                          have suffix := ((readEndTag_suffix left).trans
                            (List.drop_suffix 2 after)).length_le
                          have size := congrArg List.length split
                          rw [List.length_append] at size
                          omega
                        rw [same]
                        refine (ih _ shorter behind rest rfl).element proper raw data ?_ offset at'
                        rw [all]
                        exact noClosing_of_breakWhere isRaw broken

/-! ## A page -/

/-- The second pass reads nothing in raw text that is open. -/
theorem pass_open {element : String} {text : List Char}
    (h : breakWhere (startsEndTagOf element) text = none) (final : Bool) (offset : Nat) :
    (pass final (.raw element) offset text).events = [] ∧
      (pass final (.raw element) offset text).mode = .raw element := by
  cases text with
  | nil =>
      rw [pass]
      exact ⟨rfl, rfl⟩
  | cons c cs =>
      have stop : readPiece final (.raw element) (c :: cs) = .stop [] := by
        rw [readPiece, h]
      rw [pass, stop]
      exact ⟨rfl, rfl⟩

/-- What two passes leave is data, if it is anything, and nothing in raw text. -/
theorem PassResult.orderly_remainder (r : PassResult) :
    Markup.Orderly r.remainder ∧ ∀ element, r.mode = .raw element → r.remainder = [] := by
  unfold remainder
  split
  · next markup left _ =>
      have some : r.rest ≠ [] := by
        rw [left]
        exact List.cons_ne_nil _ _
      refine ⟨.markup some rfl .nil, fun element raw => ?_⟩
      rw [markup] at raw
      cases raw
  · exact ⟨.nil, fun _ _ => rfl⟩

/-- The events of a page are in an order in which they are read. -/
theorem tokenize_orderly (text : List Char) : Orderly (tokenize text).events := by
  have first := pass_orderly false 0 text
  rw [tokenize]
  generalize pass false .markup 0 text = r at first
  cases mode : r.mode with
  | raw element =>
      -- raw text is still open, so the second pass reads nothing more
      obtain ⟨orderly, nowhere⟩ := first.raw element mode
      obtain ⟨none, open'⟩ := pass_open nowhere true r.offset
      dsimp only
      split
      · exact orderly
      · rw [none, ((pass true (.raw element) r.offset r.rest).orderly_remainder).2 element open',
          List.append_nil, List.append_nil]
        exact orderly
  | markup =>
      dsimp only
      split
      · rw [← List.append_nil r.events]
        exact first.markup mode [] .nil
      · -- the second pass goes on where the first one stopped
        have second := pass_orderly true r.offset r.rest
        generalize pass true .markup r.offset r.rest = s at second
        rw [List.append_assoc]
        refine first.markup mode _ ?_
        cases left : s.mode with
        | markup => exact second.markup left _ s.orderly_remainder.1
        | raw element =>
            rw [s.orderly_remainder.2 element left, List.append_nil]
            exact (second.raw element left).1

end MessageCatalog.Markup
