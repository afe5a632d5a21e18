import MessageCatalog.Markup.Minify

/-!
# MessageCatalog.Proofs.Markup.Nesting -- the elements of a page nest

What it is for the tags of a page to nest is said without a stack: end tags can be put in for some
of the elements that may leave theirs out, so that every start tag has its end tag and what stands
between the two is nested as well. The check of a page keeps one stack and closes the nearest open
element of a name. It accepts exactly the pages for which the missing end tags can be put in at some
places, whichever these are.

What carries the proof is `Settles`, a stack that may close an element without an end tag at any
time. Such a stack is never worse off with one more open element that may leave out its end tag,
so leaving elements open as long as possible, as the check does, costs nothing.
-/

namespace MessageCatalog.Markup

/-! ## Marks -/

/-- What a tag does to the elements that are open. -/
inductive Mark where
  | opens (name : String)
  | closes (name : String)
  deriving DecidableEq, Repr

/-- The mark of an event. Tags that close themselves and tags of elements without content have
none. -/
def Event.mark? : Event → Option Mark
  | .startTag name _ false => if voidElements.contains name then none else some (.opens name)
  | .endTag name => if voidElements.contains name then none else some (.closes name)
  | _ => none

/-- The marks of events, in order. -/
def marksOf (events : List Located) : List Mark :=
  events.filterMap fun located => located.event.mark?

/-- Marks that come to be `full` when end tags that may be left out are put in at some places. -/
inductive Completed : (marks full : List Mark) → Prop
  | nil : Completed [] []
  | keep {marks full : List Mark} (mark : Mark) :
      Completed marks full → Completed (mark :: marks) (mark :: full)
  | insert {marks full : List Mark} {name : String} :
      name ∈ optionalEndElements → Completed marks full → Completed marks (.closes name :: full)

/-- Marks that nest: every start tag is followed by marks that nest and by its end tag. -/
inductive Nested : List Mark → Prop
  | nil : Nested []
  | element {inside rest : List Mark} (name : String) :
      Nested inside → Nested rest → Nested (.opens name :: (inside ++ .closes name :: rest))

/-! ## Stacks that close elements at any time -/

/-- Marks that close the elements of a stack, innermost first, and all that they open themselves;
an element that may leave out its end tag is closed at any time. -/
inductive Settles : List String → List Mark → Prop
  | done : Settles [] []
  | leave {name : String} {outer : List String} {marks : List Mark} :
      name ∈ optionalEndElements → Settles outer marks → Settles (name :: outer) marks
  | opens {name : String} {stack : List String} {marks : List Mark} :
      Settles (name :: stack) marks → Settles stack (.opens name :: marks)
  | closes {name : String} {outer : List String} {marks : List Mark} :
      Settles outer marks → Settles (name :: outer) (.closes name :: marks)

/-- Marks that consist of one nested part and one end tag for each element of a stack, and of a
nested part behind them. -/
def Unwinds : List String → List Mark → Prop
  | [], marks => Nested marks
  | name :: outer, marks =>
    ∃ inside rest, Nested inside ∧ Unwinds outer rest ∧ marks = inside ++ .closes name :: rest

theorem Unwinds.element {stack : List String} {inside rest : List Mark} (name : String)
    (nested : Nested inside) (h : Unwinds stack rest) :
    Unwinds stack (.opens name :: (inside ++ .closes name :: rest)) := by
  cases stack with
  | nil => exact Nested.element name nested h
  | cons innermost outer =>
      obtain ⟨before, behind, nestedBefore, unwinds, rfl⟩ := h
      refine ⟨_, behind, .element name nested nestedBefore, unwinds, ?_⟩
      simp only [List.cons_append, List.append_assoc]

/-- What settles a stack can be completed so that it unwinds the stack. -/
theorem Settles.exists_completed {stack : List String} {marks : List Mark}
    (h : Settles stack marks) : ∃ full, Completed marks full ∧ Unwinds stack full := by
  induction h with
  | done => exact ⟨[], .nil, .nil⟩
  | leave optional _ ih =>
      obtain ⟨full, completed, unwinds⟩ := ih
      exact ⟨_, .insert optional completed, [], full, .nil, unwinds, rfl⟩
  | opens _ ih =>
      obtain ⟨full, completed, inside, rest, nested, unwinds, rfl⟩ := ih
      exact ⟨_, .keep _ completed, unwinds.element _ nested⟩
  | closes _ ih =>
      obtain ⟨full, completed, unwinds⟩ := ih
      exact ⟨_, .keep _ completed, [], full, .nil, unwinds, rfl⟩

/-- Marks whose completion starts with a nested part settle a stack that the marks of what follows
that part settle. -/
theorem Nested.settles {inside : List Mark} (nested : Nested inside) :
    ∀ {stack : List String} {marks more : List Mark}, Completed marks (inside ++ more) →
      (∀ rest, Completed rest more → Settles stack rest) → Settles stack marks := by
  induction nested with
  | nil =>
      intro stack marks more completed behind
      exact behind marks completed
  | element name _ _ insideSettles restSettles =>
      intro stack marks more completed behind
      rw [List.cons_append, List.append_assoc] at completed
      cases completed with
      | keep _ completed =>
          refine .opens (insideSettles completed fun rest atEndTag => ?_)
          cases atEndTag with
          | keep _ completed => exact .closes (restSettles completed behind)
          | insert optional completed => exact .leave optional (restSettles completed behind)

/-- The marks that settle the empty stack are those that can be completed so that they nest. -/
theorem settles_iff_completed {marks : List Mark} :
    Settles [] marks ↔ ∃ full, Completed marks full ∧ Nested full := by
  constructor
  · exact Settles.exists_completed
  · rintro ⟨full, completed, nested⟩
    rw [← List.append_nil full] at completed
    refine nested.settles completed fun rest completed => ?_
    cases completed with
    | nil => exact .done

/-! ## One more open element -/

/-- One more open element that may leave out its end tag is settled as well, wherever it stands. -/
theorem Settles.insert {extra : String} (optional : extra ∈ optionalEndElements)
    {stack : List String} {marks : List Mark} (h : Settles stack marks) :
    ∀ inner outer, stack = inner ++ outer → Settles (inner ++ extra :: outer) marks := by
  induction h with
  | done =>
      intro inner outer split
      obtain ⟨rfl, rfl⟩ := List.nil_eq_append_iff.mp split
      exact .leave optional .done
  | leave leavable settles ih =>
      intro inner outer split
      cases inner with
      | nil =>
          obtain rfl : _ = outer := split
          exact .leave optional (.leave leavable settles)
      | cons _ inner =>
          obtain ⟨rfl, rfl⟩ := List.cons.inj split
          exact .leave leavable (ih inner outer rfl)
  | opens _ ih =>
      intro inner outer split
      exact .opens (ih (_ :: inner) outer (congrArg _ split))
  | closes settles ih =>
      intro inner outer split
      cases inner with
      | nil =>
          obtain rfl : _ = outer := split
          exact .leave optional (.closes settles)
      | cons _ inner =>
          obtain ⟨rfl, rfl⟩ := List.cons.inj split
          exact .closes (ih inner outer rfl)

/-- An end tag that may be left out can be left out. -/
theorem Settles.omit {name : String} (optional : name ∈ optionalEndElements) {marks : List Mark} :
    ∀ {stack : List String}, Settles stack (.closes name :: marks) → Settles stack marks
  | _ :: _, .leave leavable settles => .leave leavable (settles.omit optional)
  | _ :: _, .closes settles => .leave optional settles

/-- A start tag settles a stack just when what follows it settles the stack with its element. -/
theorem settles_opens {name : String} {stack : List String} {marks : List Mark} :
    Settles stack (.opens name :: marks) ↔ Settles (name :: stack) marks := by
  constructor
  · intro h
    induction stack with
    | nil =>
        cases h with
        | opens settles => exact settles
    | cons innermost outer ih =>
        cases h with
        | leave optional settles =>
            -- what is left in front of the start tag can be left behind its element as well
            exact (ih settles).insert optional [name] outer rfl
        | opens settles => exact settles
  · exact .opens

/-! ## The stack of the check -/

/-- The names of open elements. -/
def openNames (open' : List OpenElement) : List String := open'.map OpenElement.name

/-- Only an open element is closed. -/
theorem closeElement_eq_ok {name : String} {open' inner : List OpenElement} :
    closeElement name open' = .ok inner ↔ closeTo name open' = .ok inner := by
  unfold closeElement
  split
  · exact Iff.rfl
  · next notOpen =>
      refine ⟨nofun, fun closed => absurd ?_ notOpen⟩
      induction open' with
      | nil => nomatch closed
      | cons innermost outer ih =>
          rw [closeTo] at closed
          rw [List.any_cons, Bool.or_eq_true]
          split at closed
          · next same => exact .inl same
          · split at closed
            · exact .inr (ih (fun isOpen => notOpen (by simp [isOpen])) closed)
            · nomatch closed

/-- An end tag settles the open elements just when its nearest element can be closed and what
follows settles the elements that are left open. -/
theorem settles_closes {name : String} {open' : List OpenElement} {marks : List Mark} :
    Settles (openNames open') (.closes name :: marks) ↔
      ∃ inner, closeElement name open' = .ok inner ∧ Settles (openNames inner) marks := by
  simp only [closeElement_eq_ok]
  induction open' with
  | nil => exact ⟨nofun, fun ⟨_, closed, _⟩ => nomatch closed⟩
  | cons innermost outer ih =>
      rw [closeTo]
      split
      · next same =>
          obtain rfl := eq_of_beq same
          simp only [Except.ok.injEq, exists_eq_left']
          constructor
          · intro h
            cases h with
            | leave optional settles => exact settles.omit optional
            | closes settles => exact settles
          · exact .closes
      · next other =>
          split
          · next optional =>
              rw [← ih]
              constructor
              · intro h
                cases h with
                | leave _ settles => exact settles
                | closes _ => exact absurd (beq_self_eq_true _) other
              · exact .leave (List.contains_iff_mem.mp optional)
          · next needed =>
              refine ⟨fun h => ?_, fun ⟨_, failed, _⟩ => nomatch failed⟩
              cases h with
              | leave optional _ => exact absurd (List.contains_iff_mem.mpr optional) needed
              | closes _ => exact absurd (beq_self_eq_true _) other

/-- Nothing settles the open elements just when none of them needs its end tag. -/
theorem settles_nil {open' : List OpenElement} :
    Settles (openNames open') [] ↔ unclosed? open' = none := by
  simp only [unclosed?, List.find?_eq_none, List.mem_reverse]
  induction open' with
  | nil => exact ⟨fun _ => nofun, fun _ => .done⟩
  | cons innermost outer ih =>
      rw [List.forall_mem_cons, ← ih]
      constructor
      · intro h
        cases h with
        | leave optional settles => exact ⟨by simpa using optional, settles⟩
      · rintro ⟨optional, settles⟩
        exact .leave (by simpa using optional) settles

/-! ## Events -/

theorem marksOf_cons (located : Located) (rest : List Located) :
    marksOf (located :: rest) = located.event.mark?.toList ++ marksOf rest := by
  unfold marksOf
  rw [List.filterMap_cons]
  cases located.event.mark? <;> rfl

/-- What an event does to the open elements depends on its mark. -/
theorem nest_eq_mark (open' : List OpenElement) (located : Located) :
    nest open' located =
      match located.event.mark? with
      | none => .ok open'
      | some (.opens name) => .ok (⟨name, located.offset⟩ :: open')
      | some (.closes name) => closeElement name open' := by
  obtain ⟨offset, event⟩ := located
  cases event with
  | startTag name attributes selfClosing =>
      cases selfClosing with
      | false =>
          dsimp only [nest, Event.mark?]
          split <;> rfl
      | true => rfl
  | endTag name =>
      dsimp only [nest, Event.mark?]
      split <;> rfl
  | _ => rfl

/-- One step of the check: an event and what follows it settle the open elements just when the
event fits and what follows it settles the elements that are open then. -/
theorem settles_nest {open' : List OpenElement} (located : Located) (rest : List Located) :
    Settles (openNames open') (marksOf (located :: rest)) ↔
      ∃ inner, nest open' located = .ok inner ∧ Settles (openNames inner) (marksOf rest) := by
  rw [marksOf_cons, nest_eq_mark]
  cases located.event.mark? with
  | none =>
      simp only [Except.ok.injEq, exists_eq_left']
      exact Iff.rfl
  | some mark =>
      cases mark with
      | opens name =>
          simp only [Except.ok.injEq, exists_eq_left']
          exact settles_opens
      | closes name => exact settles_closes

/-- A run of the check: it comes to the end of the events with no element left that needs its end
tag just when the events settle the elements that are open before them. -/
theorem settles_nestAll (events : List Located) (open' : List OpenElement) :
    Settles (openNames open') (marksOf events) ↔
      ∃ left, nestAll open' events = .ok left ∧ unclosed? left = none := by
  induction events generalizing open' with
  | nil =>
      simp only [nestAll, Except.ok.injEq, exists_eq_left']
      exact settles_nil
  | cons located rest ih =>
      rw [settles_nest]
      simp only [ih, nestAll]
      cases nest open' located with
      | error cause => simp
      | ok inner => simp

/-- The check accepts a page just when it was read to its end and its marks settle no elements. -/
theorem checkPage_iff_settles (page : Page) :
    checkPage page = .ok () ↔ page.rejection = none ∧ Settles [] (marksOf page.events) := by
  have run := settles_nestAll page.events []
  rw [show openNames [] = [] from rfl] at run
  rw [run, checkPage]
  cases nestAll [] page.events with
  | error fault => simp
  | ok left =>
      cases page.rejection with
      | some why => simp
      | none =>
          simp only [Except.ok.injEq, exists_eq_left', true_and]
          cases unclosed? left <;> simp

/-- The check accepts a page just when it was read to its end and end tags of elements that may
leave theirs out can be put in at some places so that its tags nest and every element is closed. -/
theorem checkPage_iff_nested (page : Page) :
    checkPage page = .ok () ↔
      page.rejection = none ∧ ∃ full, Completed (marksOf page.events) full ∧ Nested full := by
  rw [← settles_iff_completed]
  exact checkPage_iff_settles page

end MessageCatalog.Markup
