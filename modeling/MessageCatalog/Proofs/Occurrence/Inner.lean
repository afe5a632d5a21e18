import MessageCatalog.Proofs.Markup.Stack
import MessageCatalog.Proofs.Occurrence.Scan

/-!
# MessageCatalog.Proofs.Occurrence.Inner -- the source of an element that has an end tag

The tree closes an element at an end tag of its name, and with it everything inside that is still
open. The scan for the source of its content only counts tags of the name, so it goes on at the end
tag of the element when an element of the same name inside was closed by the end tag of another.
Otherwise it ends where the tree says, if the tags of the name and the comments are written plainly
and nothing else looks like them.
-/

namespace MessageCatalog.Occurrence

open MessageCatalog.Markup

/-! ## Elements with an end tag -/

/-- What is built of some slices at the front of a page. -/
def builtFrom (slices : List Slice) : Builder :=
  (eventsAt 0 slices).foldl Builder.read Builder.empty

/-- Whether the element whose start tag is at an offset is open behind some slices. -/
def IsOpen (slices : List Slice) (offset : Nat) : Prop :=
  ∃ tag ∈ (builtFrom slices).tags, tag.offset = offset

instance (slices : List Slice) (offset : Nat) : Decidable (IsOpen slices offset) :=
  inferInstanceAs (Decidable (∃ tag ∈ (builtFrom slices).tags, tag.offset = offset))

/-- An element of a page with an end tag of its own: it is open from its start tag up to an end tag
of its name, and closed by that. -/
structure ClosedElement (page : List Char) where
  name : String
  before : List Slice
  startTag : Slice
  inside : List Slice
  endTag : Slice
  after : List Slice
  slices : slicesOf page = before ++ startTag :: (inside ++ endTag :: after)
  starts : ∃ attributes selfClosing, startTag.event = some (.startTag name attributes selfClosing)
  ends : endTag.event = some (.endTag name)
  opened : IsOpen (before ++ startTag :: inside) (sliced before).length
  closed : ¬IsOpen (before ++ startTag :: (inside ++ [endTag])) (sliced before).length

namespace ClosedElement

variable {page : List Char}

/-- Where the start tag of an element stands. -/
def offset (e : ClosedElement page) : Nat := (sliced e.before).length

/-- The text between the start tag and the end tag of an element. -/
def content (e : ClosedElement page) : List Char := sliced e.inside

/-- What stands in a page behind the end tag of an element. -/
def behind (e : ClosedElement page) : List Char :=
  page.drop (sliced (e.before ++ e.startTag :: (e.inside ++ [e.endTag]))).length

/-- An element whose tags and content are written plainly. -/
def Plain (e : ClosedElement page) : Prop :=
  AllClear e.name e.behind (e.startTag :: (e.inside ++ [e.endTag]))

/-- An element whose content has as many start tags as end tags of its name, not counting those that
close themselves. -/
def Balanced (e : ClosedElement page) : Prop :=
  (tagMarks e.name e.inside).count .opening = (tagMarks e.name e.inside).count .closing

end ClosedElement

/-! ## Elements of the same name inside -/

/-- How many tags of a name there are. -/
def namesakes (name : String) (tags : List Tag) : Nat := tags.countP fun tag => tag.name == name

section Inside

variable {b : Builder} {own : Tag} {above outer : List Tag} {open' : Nat}
  (isOpen : b.tags = above ++ own :: outer) (others : ∀ tag ∈ outer, tag.offset ≠ own.offset)
  (sane : b.Sane) (content : own.name ∉ emptyElements)

include isOpen others in
/-- An end tag that leaves an element open closes an element inside it, or nothing. -/
theorem closeNamed_inside (name : String)
    (still : ∃ tag ∈ Builder.closeNamed name b.tags, tag.offset = own.offset) :
    (∃ front tag rest, above = front ++ tag :: rest ∧ (∀ other ∈ front, other.name ≠ name) ∧
        tag.name = name ∧ Builder.closeNamed name b.tags = rest ++ own :: outer) ∨
      own.name ≠ name ∧ Builder.closeNamed name b.tags = above ++ own :: outer := by
  obtain ⟨last, there, same⟩ := still
  -- what is left has no tag of the element if the element or one around it is closed
  have gone : ∀ rest : List Tag, Builder.closeNamed name b.tags = rest → (∀ tag ∈ rest, tag ∈ outer) →
      False := by
    intro rest left inside
    rw [left] at there
    exact others last (inside last there) same
  rcases Builder.closeNamed_cases name b.tags with
    ⟨front, tag, rest, split, front', isNamed, left⟩ | ⟨none, left⟩
  · rw [isOpen] at split
    rcases List.append_eq_append_iff.mp split with ⟨more, rfl, same'⟩ | ⟨more, rfl, same'⟩
    · cases more with
      | nil =>
          cases same'
          exact (gone _ left fun _ => id).elim
      | cons first more =>
          cases same'
          exact (gone _ left fun tag there => by simp [there]).elim
    · cases more with
      | nil =>
          cases same'
          exact (gone _ left fun _ => id).elim
      | cons first more =>
          cases same'
          exact Or.inl ⟨front, tag, more, rfl, front', isNamed, left⟩
  · rw [isOpen] at none
    exact Or.inr ⟨none own (by simp), left.trans isOpen⟩

include isOpen others sane content in
/-- While an element is open, the marks of a slice count at least the elements of its name that are
open inside it. -/
theorem level_read {slice : Slice} {offset : Nat} (counted : namesakes own.name above ≤ open')
    (still : ∃ tag ∈ ((eventsAt offset [slice]).foldl Builder.read b).tags,
      tag.offset = own.offset) :
    ∃ above' now, ((eventsAt offset [slice]).foldl Builder.read b).tags = above' ++ own :: outer ∧
      levelBehind open' (markOf own.name slice).toList = some now ∧
        namesakes own.name above' ≤ now := by
  obtain ⟨text, event⟩ := slice
  cases event with
  | none => exact ⟨above, open', isOpen, rfl, counted⟩
  | some event =>
      have read : (eventsAt offset [⟨text, some event⟩]).foldl Builder.read b =
          b.read ⟨offset, event⟩ := rfl
      rw [read] at still ⊢
      cases event with
      | startTag name attributes selfClosing =>
          have event : (Located.mk offset (.startTag name attributes selfClosing)).event =
              .startTag name attributes selfClosing := rfl
          have tags := Builder.tags_read_startTag (b := b) event
          by_cases named : name = own.name
          · subst named
            have absent : own.name ∉ b.finished := fun there => content (sane _ there)
            cases selfClosing with
            | true =>
                refine ⟨above, open', ?_, by simp [markOf, levelBehind, level], counted⟩
                rw [tags, if_neg (by simpa using absent), isOpen]
            | false =>
                refine ⟨⟨own.name, attributesOf own.name attributes, offset⟩ :: above, open' + 1, ?_,
                  by simp [markOf, levelBehind, level], ?_⟩
                · rw [tags, if_pos (by simpa using content), isOpen]
                  rfl
                · simpa [namesakes] using counted
          · have none : markOf own.name ⟨text, some (.startTag name attributes selfClosing)⟩ = none := by
              simp [markOf, named]
            rw [none]
            rcases ite_eq_or_eq (if selfClosing then name ∈ b.finished else name ∉ emptyElements)
              (⟨name, attributesOf name attributes, offset⟩ :: b.tags) b.tags with same | same
            · refine ⟨⟨name, attributesOf name attributes, offset⟩ :: above, open', ?_, rfl, ?_⟩
              · rw [tags, same, isOpen]
                rfl
              · simpa [namesakes, named] using counted
            · exact ⟨above, open', by rw [tags, same, isOpen], rfl, counted⟩
      | endTag name =>
          have event : (Located.mk offset (.endTag name)).event = .endTag name := rfl
          have tags := Builder.tags_read_endTag (b := b) event
          by_cases answers : name ∈ b.finished
          · -- the end tag of an element without content, which the element is not
            have named : name ≠ own.name := fun same => content (same ▸ sane _ answers)
            refine ⟨above, open', ?_, by simp [markOf, levelBehind, named], counted⟩
            rw [tags, if_pos answers, isOpen]
          · rw [tags, if_neg answers] at still ⊢
            rcases closeNamed_inside isOpen others name still with
              ⟨front, tag, rest, rfl, apart, isNamed, left⟩ | ⟨named, left⟩
            · rw [namesakes, List.countP_append, List.countP_cons] at counted
              by_cases named : name = own.name
              · -- the innermost element of the name is closed, so one at least was counted
                rw [if_pos (by simp [isNamed, named])] at counted
                obtain ⟨now, rfl⟩ := Nat.exists_eq_add_one.mpr (show 0 < open' by omega)
                refine ⟨rest, now, left, by simp [markOf, named, levelBehind, level], ?_⟩
                rw [namesakes]
                omega
              · refine ⟨rest, open', left, by simp [markOf, named, levelBehind], ?_⟩
                rw [namesakes]
                omega
            · have none : markOf own.name ⟨text, some (.endTag name)⟩ = none := by
                simp [markOf, Ne.symm named]
              rw [none]
              exact ⟨above, open', left, rfl, counted⟩
      | data _ | named _ | numeric _ | comment _ | declaration _ | marked _ | instruction _ =>
          refine ⟨above, open', ?_, by simp [markOf, levelBehind], counted⟩
          rw [Builder.tags_read_other (by rfl), isOpen]

include isOpen others sane content in
/-- While an element is open, no end tag of its name is one too many, and the marks count at least
the elements of its name that are open inside it. -/
theorem level_foldl_read {slices : List Slice} {offset : Nat}
    (counted : namesakes own.name above ≤ open')
    (later : ∀ located ∈ eventsAt offset slices, located.offset ≠ own.offset)
    (still : ∃ tag ∈ ((eventsAt offset slices).foldl Builder.read b).tags,
      tag.offset = own.offset) :
    ∃ now, levelBehind open' (tagMarks own.name slices) = some now := by
  induction slices generalizing b above open' offset with
  | nil => exact ⟨open', rfl⟩
  | cons slice rest ih =>
      have split : eventsAt offset (slice :: rest) =
          eventsAt offset [slice] ++ eventsAt (offset + slice.text.length) rest := by
        simp [eventsAt]
      rw [split, List.forall_mem_append] at later
      rw [split, List.foldl_append] at still
      -- a tag that is open at the end is open in between
      have between : ∃ tag ∈ ((eventsAt offset [slice]).foldl Builder.read b).tags,
          tag.offset = own.offset := by
        obtain ⟨tag, there, same⟩ := still
        rcases Builder.mem_tags_foldl_read there with before | ⟨located, among, own'⟩
        · exact ⟨tag, before, same⟩
        · exact absurd (own'.symm.trans same) (later.2 located among)
      obtain ⟨above', now, isOpen', goes, counted'⟩ :=
        level_read isOpen others sane content counted between
      obtain ⟨last, goes'⟩ := ih isOpen' (Builder.sane_foldl_read sane _) counted' later.2 still
      refine ⟨last, ?_⟩
      rw [tagMarks_cons, levelBehind_append, goes]
      exact goes'

end Inside

/-! ## The source of the content -/

namespace ClosedElement

variable {page : List Char}

/-- A page from the start tag of an element on. -/
theorem drop_offset (e : ClosedElement page) :
    page.drop e.offset = e.startTag.text ++ (e.content ++ (e.endTag.text ++ e.behind)) := by
  have front : ∀ {text rest : List Char}, text ++ rest = page → page.drop text.length = rest := by
    rintro text rest rfl
    exact List.drop_left
  obtain ⟨left, whole⟩ := sliced_slicesOf page
  have split : sliced (e.before ++ e.startTag :: (e.inside ++ e.endTag :: e.after)) =
      sliced (e.before ++ e.startTag :: (e.inside ++ [e.endTag])) ++ sliced e.after := by
    rw [← sliced_append]
    simp
  rw [e.slices, split, List.append_assoc] at whole
  have behind : e.behind = sliced e.after ++ left := front whole
  rw [← behind, sliced_append, List.append_assoc] at whole
  rw [offset, front whole]
  simp [content, sliced]

/-- An element with an end tag of its own has no content and closes itself, or else its end tags
inside each have a start tag there. -/
theorem opened_cases (e : ClosedElement page) {attributes : List Attribute} {selfClosing : Bool}
    (event : e.startTag.event = some (.startTag e.name attributes selfClosing)) :
    selfClosing = true ∧ e.name ∈ emptyElements ∨
      selfClosing = false ∧ e.name ∉ emptyElements ∧
        ∃ now, levelBehind 0 (tagMarks e.name e.inside) = some now := by
  have some' := slicesOf_text page
  rw [e.slices, List.forall_mem_append, List.forall_mem_cons, List.forall_mem_append] at some'
  obtain ⟨someBefore, someStart, someInside, -⟩ := some'
  have sane : (builtFrom e.before).Sane :=
    Builder.sane_foldl_read (fun _ => List.not_mem_nil.elim) _
  -- the tags around the element stand in front of it, those inside behind its start tag
  have around : ∀ tag ∈ (builtFrom e.before).tags, tag.offset ≠ e.offset := by
    intro tag there
    rcases Builder.mem_tags_foldl_read there with none | ⟨located, among, same⟩
    · cases none
    · have bounds := offset_eventsAt someBefore among
      rw [same, offset]
      omega
  have later : ∀ located ∈ eventsAt (e.offset + e.startTag.text.length) e.inside,
      located.offset ≠ e.offset := by
    intro located among
    have bounds := offset_eventsAt someInside among
    have long := List.length_pos_iff.mpr someStart
    omega
  have built : builtFrom (e.before ++ e.startTag :: e.inside) =
      (eventsAt (e.offset + e.startTag.text.length) e.inside).foldl Builder.read
        ((builtFrom e.before).read ⟨e.offset, .startTag e.name attributes selfClosing⟩) := by
    rw [builtFrom, eventsAt_append, eventsAt, event, List.foldl_append, Nat.zero_add]
    rfl
  have still := e.opened
  rw [IsOpen, built] at still
  obtain ⟨tag, there, same⟩ := still
  have own : tag ∈
      ((builtFrom e.before).read ⟨e.offset, .startTag e.name attributes selfClosing⟩).tags := by
    rcases Builder.mem_tags_foldl_read there with before | ⟨located, among, own⟩
    · exact before
    · exact absurd (own.symm.trans same) (later located among)
  have opening : (Located.mk e.offset (.startTag e.name attributes selfClosing)).event =
      .startTag e.name attributes selfClosing := rfl
  have tags := Builder.tags_read_startTag (b := builtFrom e.before) opening
  by_cases stays : if selfClosing then e.name ∈ (builtFrom e.before).finished
      else e.name ∉ emptyElements
  · rw [if_pos stays] at tags
    cases selfClosing with
    | true => exact Or.inl ⟨rfl, sane _ stays⟩
    | false =>
        refine Or.inr ⟨rfl, stays, ?_⟩
        have innermost : ((builtFrom e.before).read
            ⟨e.offset, .startTag e.name attributes false⟩).tags =
              [] ++ ⟨e.name, attributesOf e.name attributes, e.offset⟩ :: (builtFrom e.before).tags :=
          tags
        exact level_foldl_read innermost around (Builder.sane_read sane _) stays (Nat.le_refl 0)
          later ⟨tag, there, same⟩
  · rw [tags, if_neg stays] at own
    exact absurd same (around tag own)

/-- Behind the content of an element its end tag closes it, or the scan goes on. -/
theorem contentOf_behind (e : ClosedElement page) (plain : e.Plain) {now : Nat}
    (goes : levelBehind 0 (tagMarks e.name e.inside) = some now) :
    contentOf e.name.toList 0 (e.content ++ (e.endTag.text ++ e.behind)) = some e.content ↔
      now = 0 := by
  obtain ⟨clear, endClear, -⟩ := allClear_append.mp plain.2
  obtain ⟨inside, isTag⟩ := Clear.endTag endClear e.ends
  have text : sliced [e.endTag] = e.endTag.text := by simp [sliced]
  rw [text] at clear
  rw [content, contentOf_slices clear goes,
    contentOf_mark isTag.text_ne_nil (markAt?_closing isTag e.behind)]
  cases now with
  | zero => simp [level]
  | succ now =>
      -- what is found further on is longer
      have some' := isTag.text_ne_nil
      refine iff_of_false ?_ (Nat.succ_ne_zero now)
      simp only [level, Option.map_map, Option.map_eq_some_iff, not_exists, not_and]
      intro beyond _ same
      simp at same
      exact some' same.1

/-- The source of an element whose tags and content are written plainly is what stands between its
tags, just when the element may have content and as many elements of its name are opened as are
closed inside it. -/
theorem innerSource_eq_content_iff (e : ClosedElement page) (plain : e.Plain) :
    innerSource page e.name.toList e.offset = some e.content ↔
      e.name ∉ emptyElements ∧ e.Balanced := by
  obtain ⟨attributes, selfClosing, event⟩ := e.starts
  obtain ⟨inside, isTag, closes⟩ := Clear.startTag plain.1 event
  rw [innerSource_opening e.drop_offset isTag, closes]
  rcases e.opened_cases event with ⟨rfl, void⟩ | ⟨rfl, content, now, goes⟩
  · rw [if_pos rfl]
    exact iff_of_false nofun fun both => both.1 void
  · rw [if_neg Bool.false_ne_true, e.contentOf_behind plain goes, and_iff_right content, Balanced]
    have counts := levelBehind_count goes
    omega

end ClosedElement

/-- A page with a bracket in a value, an element of the same name and an end tag in a comment. -/
def nestedPage : List Char := "<p a='>'>x<p>y</p><!--</p>--></p>".toList

/-- The outer element of the nested page. -/
def nestedElement : ClosedElement nestedPage where
  name := "p"
  before := []
  startTag := ⟨"<p a='>'>".toList, some (.startTag "p" [⟨"a", some ['>']⟩] false)⟩
  inside := [⟨['x'], some (.data ['x'])⟩, ⟨"<p>".toList, some (.startTag "p" [] false)⟩,
    ⟨['y'], some (.data ['y'])⟩, ⟨"</p>".toList, some (.endTag "p")⟩,
    ⟨"<!--</p>-->".toList, some (.comment "</p>".toList)⟩]
  endTag := ⟨"</p>".toList, some (.endTag "p")⟩
  after := []
  slices := by decide +kernel
  starts := ⟨_, _, rfl⟩
  ends := rfl
  opened := by decide +kernel
  closed := by decide +kernel

theorem spells_p : Spells "p".toList ['p'] where
  same := .cons (by decide) .nil
  letter := ⟨'p', [], rfl, by decide⟩
  plain := by simp

/-- The source of the outer element of the nested page is its whole content. -/
theorem innerSource_nestedElement :
    innerSource nestedPage "p".toList 0 = some "x<p>y</p><!--</p>-->".toList := by
  have bare : ∀ opening, IsTag "p".toList opening (opening ++ ['p', '>']) [] := fun _ =>
    ⟨⟨['p'], rfl, spells_p⟩, by decide, .nil⟩
  have quoted : Enclosed ['\'', '>', '\''] :=
    @Enclosed.quoted '\'' ['>'] [] (Or.inr rfl) (by decide) .nil
  have start : IsTag "p".toList ['<'] "<p a='>'>".toList [' ', 'a', '=', '\'', '>', '\''] := by
    refine ⟨⟨['p'], by decide, spells_p⟩, by decide, ?_⟩
    exact .plain (by decide) (by decide) (by decide) <| .plain (by decide) (by decide) (by decide) <|
      .plain (by decide) (by decide) (by decide) quoted
  have plain : nestedElement.Plain := by
    refine ⟨.opening start (by decide), .other rfl (by decide), .opening (bare ['<']) (by decide),
      .other rfl (by decide), .closing (bare ['<', '/']), ?_, .closing (bare ['<', '/']), trivial⟩
    exact @Clear.comment "p" _ "</p>".toList _ (by decide)
  exact (ClosedElement.innerSource_eq_content_iff nestedElement plain).mpr
    ⟨by decide, rfl⟩

/-- A page with an end tag in a value of another element. -/
def linkPage : List Char := "<p localize><a title=\"</p>\">x</a></p>".toList

/-- The element of the page that has the link inside. -/
def linkElement : ClosedElement linkPage where
  name := "p"
  before := []
  startTag := ⟨"<p localize>".toList, some (.startTag "p" [⟨"localize", none⟩] false)⟩
  inside := [⟨"<a title=\"</p>\">".toList, some (.startTag "a" [⟨"title", some "</p>".toList⟩] false)⟩,
    ⟨['x'], some (.data ['x'])⟩, ⟨"</a>".toList, some (.endTag "a")⟩]
  endTag := ⟨"</p>".toList, some (.endTag "p")⟩
  after := []
  slices := by decide +kernel
  starts := ⟨_, _, rfl⟩
  ends := rfl
  opened := by decide +kernel
  closed := by decide +kernel

/-- The source of an element with an end tag is not always what stands between its tags. -/
theorem innerSource_linkElement :
    ¬∀ (page : List Char) (nodes : List Node), parse page = .ok nodes →
      ∀ e : ClosedElement page, innerSource page e.name.toList e.offset = some e.content := by
  intro all
  cases read : parse linkPage with
  | error why =>
      have accepted : (parse linkPage).isOk = true := by decide +kernel
      rw [read] at accepted
      cases accepted
  | ok nodes => exact absurd (all linkPage nodes read linkElement) (by decide +kernel)

end MessageCatalog.Occurrence
