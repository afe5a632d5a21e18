import Mathlib.Data.List.Forall2
import MessageCatalog.Occurrence.Inner
import MessageCatalog.Proofs.Markup.Slice
import MessageCatalog.Proofs.Text.Search

/-!
# MessageCatalog.Proofs.Occurrence.Scan -- looking for the end of an element

The end tag of an element is looked for in its text, without the tree. The scan stops at comments
and at tags of the element's name and passes over all other text. So it comes out where the slices
of the page say, as long as their comments and their tags of that name are written plainly and
nothing else looks like one: then it counts the tags of the name.
-/

namespace MessageCatalog.Occurrence

open MessageCatalog.Markup (Slice sliced)
open MessageCatalog.Text

variable {name text behind : List Char}

/-! ## Marks -/

/-- How many further elements are open behind a mark, or nothing where it closes the element whose
end is looked for. -/
def level : Nat → Mark → Option Nat
  | 0, .closing => none
  | open' + 1, .closing => some open'
  | open', .opening => some (open' + 1)
  | open', .comment => some open'
  | open', .closed => some open'

/-- How many further elements are open behind some marks. -/
def levelBehind : Nat → List Mark → Option Nat
  | open', [] => some open'
  | open', mark :: rest => (level open' mark).bind fun now => levelBehind now rest

/-- Whether a text starts with a name that ends there. -/
def startsName (name text : List Char) : Bool := (afterName? name text).any endsName

/-- Whether a text starts like a comment or like a tag of a name. -/
def looksLike (name text : List Char) : Bool :=
  startsWith "<!--".toList text || startsWith ['<'] text && startsName name (text.drop 1) ||
    startsWith ['<', '/'] text && startsName name (text.drop 2)

theorem tagRest_shorter {quote : Option Char} {inside after : List Char}
    (h : tagRest quote text = some (inside, after)) : after.length < text.length := by
  induction text generalizing quote inside with
  | nil => cases h
  | cons c rest ih =>
      have later : ∀ quote', ((tagRest quote' rest).map fun read => (c :: read.1, read.2)) =
          some (inside, after) → after.length < (c :: rest).length := by
        intro quote' read
        obtain ⟨⟨others, _⟩, found, same⟩ := Option.map_eq_some_iff.mp read
        cases same
        exact Nat.lt_trans (ih found) (Nat.lt_succ_self _)
      unfold tagRest at h
      split at h
      · exact later _ h
      split at h
      · cases h
        exact Nat.lt_succ_self _
      · exact later _ h

/-- What a mark is: a comment, or a tag of the name whose inside ends at its bracket. -/
theorem markAt?_cases {mark : Mark} {after : List Char} (h : markAt? name text = some (mark, after)) :
    (∃ inside before, text = "<!--".toList ++ inside ∧
        splitAtFirst "-->".toList inside = some (before, after)) ∨
      ∃ tag named rest inside, text = '<' :: tag ∧ (tag = named ∨ tag = '/' :: named) ∧
        afterName? name named = some rest ∧ endsName rest = true ∧
        tagRest none rest = some (inside, after) := by
  unfold markAt? at h
  split at h
  · next inside opened =>
      obtain ⟨⟨before, rest⟩, found, same⟩ := Option.map_eq_some_iff.mp h
      cases same
      exact Or.inl ⟨inside, before, after?_iff.mp opened, found⟩
  · obtain ⟨tag, opened, h⟩ := Option.bind_eq_some_iff.mp h
    refine Or.inr ?_
    split at h
    next slash named isTag =>
    obtain ⟨rest, found, h⟩ := Option.bind_eq_some_iff.mp h
    cases ends : endsName rest with
    | false =>
        rw [ends] at h
        cases h
    | true =>
        rw [ends] at h
        obtain ⟨⟨inside, others⟩, read, same⟩ := Option.bind_eq_some_iff.mp h
        cases same
        refine ⟨tag, named, rest, inside, after?_iff.mp opened, ?_, found, ends, read⟩
        split at isTag
        · cases isTag
          exact Or.inr rfl
        · cases isTag
          exact Or.inl rfl

theorem markAt?_shorter {mark : Mark} {after : List Char}
    (h : markAt? name text = some (mark, after)) : after.length < text.length := by
  rcases markAt?_cases h with ⟨inside, before, rfl, found⟩ | ⟨tag, named, rest, inside, rfl, same, found, -, read⟩
  · obtain ⟨⟨front, others⟩, broken, same⟩ := Option.map_eq_some_iff.mp found
    cases same
    have split := congrArg List.length (breakWhere_eq_some broken).1
    rw [List.length_append] at split
    rw [List.length_append, List.length_drop, show "<!--".toList.length = 4 from by decide]
    omega
  · have shorter := tagRest_shorter read
    have long := (afterName?_suffix found).length_le
    rcases same with rfl | rfl <;> simp only [List.length_cons] <;> omega

/-- Where a text does not look like a mark, there is none. -/
theorem markAt?_eq_none (h : looksLike name text = false) : markAt? name text = none := by
  rw [Option.eq_none_iff_forall_ne_some]
  rintro ⟨mark, after⟩ found
  refine Bool.false_ne_true (h.symm.trans ?_)
  have isName : ∀ {named rest : List Char}, afterName? name named = some rest →
      endsName rest = true → startsName name named = true := by
    intro named rest read ends
    rw [startsName, read]
    exact ends
  simp only [looksLike, Bool.or_eq_true, Bool.and_eq_true]
  rcases markAt?_cases found with
    ⟨inside, before, rfl, -⟩ | ⟨_, named, rest, inside, rfl, rfl | rfl, read, ends, -⟩
  · exact Or.inl (Or.inl (startsWith_iff.mpr (List.prefix_append _ _)))
  · exact Or.inl (Or.inr ⟨rfl, isName read ends⟩)
  · exact Or.inr ⟨rfl, isName read ends⟩

/-! ## The scan -/

/-- With fuel for every character the result does not depend on it. -/
theorem upToClosing_fuel {fuel fuel' : Nat} (enough : text.length < fuel)
    (enough' : text.length < fuel') (open' : Nat) :
    upToClosing name fuel open' text = upToClosing name fuel' open' text := by
  induction fuel generalizing fuel' open' text with
  | zero => cases enough
  | succ fuel ih =>
      obtain ⟨fuel', rfl⟩ := Nat.exists_eq_add_one.mpr (Nat.zero_lt_of_lt enough')
      cases text with
      | nil => rfl
      | cons c rest =>
          rw [upToClosing, upToClosing]
          cases found : markAt? name (c :: rest) with
          | none =>
              have same : upToClosing name fuel open' rest = upToClosing name fuel' open' rest :=
                ih (Nat.lt_of_succ_lt_succ enough) (Nat.lt_of_succ_lt_succ enough') open'
              simp only [same]
          | some read =>
              obtain ⟨mark, after⟩ := read
              have shorter := markAt?_shorter found
              have same : ∀ now, upToClosing name fuel now after = upToClosing name fuel' now after :=
                fun now => ih (by omega) (by omega) now
              cases mark <;> cases open' <;> simp only [same]

/-- The text before the end tag that closes the innermost of some open elements of a name. -/
def contentOf (name : List Char) (open' : Nat) (text : List Char) : Option (List Char) :=
  upToClosing name (text.length + 1) open' text

variable {open' : Nat}

theorem contentOf_skip {c : Char} (none : markAt? name (c :: text) = none) :
    contentOf name open' (c :: text) = (contentOf name open' text).map (c :: ·) := by
  rw [contentOf, upToClosing, none]
  rfl

/-- A mark is passed over as a whole, unless it closes the element. -/
theorem contentOf_mark {mark : Mark} (some' : text ≠ [])
    (found : markAt? name (text ++ behind) = some (mark, behind)) :
    contentOf name open' (text ++ behind) =
      match level open' mark with
      | none => some []
      | some now => (contentOf name now behind).map (text ++ ·) := by
  obtain ⟨c, rest, rfl⟩ := List.exists_cons_of_ne_nil some'
  have passed : (c :: (rest ++ behind)).take ((rest ++ behind).length + 1 - behind.length) =
      c :: rest := by
    have size : (rest ++ behind).length + 1 - behind.length = (c :: rest).length := by
      simp only [List.length_append, List.length_cons]
      omega
    rw [size, ← List.cons_append, List.take_left]
  have later : ∀ now, upToClosing name (rest ++ behind).length.succ now behind =
      contentOf name now behind := by
    intro now
    refine upToClosing_fuel ?_ (Nat.lt_succ_self _) now
    rw [List.length_append]
    omega
  rw [List.cons_append] at found ⊢
  rw [contentOf, List.length_cons, upToClosing, found]
  cases mark <;> cases open' <;> simp only [level, passed, later]

/-- Text that looks like no mark is passed over. -/
theorem contentOf_unmarked
    (unmarked : ∀ i < text.length, looksLike name ((text ++ behind).drop i) = false) :
    contentOf name open' (text ++ behind) = (contentOf name open' behind).map (text ++ ·) := by
  induction text with
  | nil => simp
  | cons c rest ih =>
      have here : looksLike name (c :: (rest ++ behind)) = false := unmarked 0 (Nat.succ_pos _)
      have later : ∀ i < rest.length, looksLike name ((rest ++ behind).drop i) = false :=
        fun i less => unmarked (i + 1) (Nat.succ_lt_succ less)
      rw [List.cons_append, contentOf_skip (markAt?_eq_none here), ih later, Option.map_map]
      rfl

/-! ## Tags that are written plainly -/

/-- A text in which every quote is closed and closing brackets stand in quotes only. -/
inductive Enclosed : List Char → Prop
  | nil : Enclosed []
  | plain {c : Char} {rest : List Char} :
      c ≠ '>' → c ≠ '"' → c ≠ '\'' → Enclosed rest → Enclosed (c :: rest)
  | quoted {quote : Char} {inside rest : List Char} :
      quote = '"' ∨ quote = '\'' → quote ∉ inside → Enclosed rest →
        Enclosed (quote :: (inside ++ quote :: rest))

/-- A name as it may be written in a tag: in other letter cases, with a letter first and without
quotes, slashes and brackets. -/
structure Spells (name spelled : List Char) : Prop where
  same : SpellsAs name spelled
  letter : ∃ first others, spelled = first :: others ∧ isAsciiLetter first = true
  plain : ∀ c ∈ spelled, c ≠ '>' ∧ c ≠ '"' ∧ c ≠ '\'' ∧ c ≠ '/'

/-- A tag whose name stands directly behind what opens the tag and ends there, and whose inside has
all its quotes closed. -/
structure IsTag (name opening text inside : List Char) : Prop where
  written : ∃ spelled, text = opening ++ (spelled ++ (inside ++ ['>'])) ∧ Spells name spelled
  ends : endsName (inside ++ ['>']) = true
  enclosed : Enclosed inside

theorem tagRest_quoted {quote : Char} {inside : List Char} (h : quote ∉ inside) (rest : List Char) :
    tagRest (some quote) (inside ++ quote :: rest) =
      (tagRest none rest).map fun read => (inside ++ quote :: read.1, read.2) := by
  induction inside with
  | nil => simp [tagRest]
  | cons c inside ih =>
      rw [List.mem_cons, not_or] at h
      rw [List.cons_append, tagRest, if_neg (by simp [Ne.symm h.1]), ih h.2, Option.map_map]
      rfl

theorem tagRest_enclosed {inside : List Char} (h : Enclosed inside) (rest : List Char) :
    tagRest none (inside ++ rest) =
      (tagRest none rest).map fun read => (inside ++ read.1, read.2) := by
  induction h with
  | nil => simp
  | plain bracket double single _ ih =>
      rw [List.cons_append, tagRest, if_neg (by simpa using bracket), if_neg (by simp [double, single]),
        ih, Option.map_map]
      rfl
  | @quoted quote inside others isQuote closed _ ih =>
      have notBracket : ¬(quote == '>') = true := by rcases isQuote with rfl | rfl <;> decide
      have opens : (quote == '"' || quote == '\'') = true := by
        rcases isQuote with rfl | rfl <;> decide
      rw [List.cons_append, List.append_assoc, List.cons_append, tagRest, if_neg notBracket,
        if_pos opens, tagRest_quoted closed, ih, Option.map_map, Option.map_map]
      simp [Function.comp_def]

theorem tagRest_bracket (rest : List Char) : tagRest none ('>' :: rest) = some ([], rest) := by
  rw [tagRest, if_pos (beq_self_eq_true _)]

theorem Spells.enclosed {spelled : List Char} (h : Spells name spelled) : Enclosed spelled := by
  have all : ∀ text : List Char, (∀ c ∈ text, c ≠ '>' ∧ c ≠ '"' ∧ c ≠ '\'' ∧ c ≠ '/') →
      Enclosed text := by
    intro text plain
    induction text with
    | nil => exact .nil
    | cons c rest ih =>
        rw [List.forall_mem_cons] at plain
        exact .plain plain.1.1 plain.1.2.1 plain.1.2.2.1 (ih plain.2)
  exact all spelled h.plain

theorem after?_comment {first : Char} (other : first ≠ '!') (rest : List Char) :
    after? "<!--".toList ('<' :: first :: rest) = none := by
  have mark : "<!--".toList = ['<', '!', '-', '-'] := by decide
  rw [mark, after?, if_pos (beq_self_eq_true _), after?, if_neg (by simpa using Ne.symm other)]

/-- Behind the name of a tag, its inside and its bracket are read. -/
theorem tag_of_spells {spelled inside : List Char} (spells : Spells name spelled)
    (ends : endsName (inside ++ ['>']) = true) (enclosed : Enclosed inside) (behind : List Char) :
    afterName? name (spelled ++ (inside ++ '>' :: behind)) = some (inside ++ '>' :: behind) ∧
      endsName (inside ++ '>' :: behind) = true ∧
        tagRest none (inside ++ '>' :: behind) = some (inside, behind) := by
  refine ⟨afterName?_iff.mpr ⟨_, rfl, spells.same⟩, ?_, ?_⟩
  · cases inside with
    | nil => rfl
    | cons c rest => exact ends
  · rw [tagRest_enclosed enclosed, tagRest_bracket]
    simp

theorem IsTag.text_append {opening inside : List Char} (h : IsTag name opening text inside)
    (behind : List Char) : ∃ spelled, Spells name spelled ∧
      text ++ behind = opening ++ (spelled ++ (inside ++ '>' :: behind)) := by
  obtain ⟨spelled, rfl, spells⟩ := h.written
  exact ⟨spelled, spells, by simp⟩

/-- A start tag that is written plainly is a mark. -/
theorem markAt?_opening {inside : List Char} (h : IsTag name ['<'] text inside)
    (behind : List Char) :
    markAt? name (text ++ behind) =
      some (if closesItself inside then .closed else .opening, behind) := by
  obtain ⟨spelled, spells, same⟩ := h.text_append behind
  obtain ⟨named, ends, read⟩ := tag_of_spells spells h.ends h.enclosed behind
  obtain ⟨first, others, rfl, letter⟩ := spells.letter
  have notMark : first ≠ '!' := by
    rintro rfl
    cases letter
  have notSlash : first ≠ '/' := (spells.plain first List.mem_cons_self).2.2.2
  rw [List.singleton_append, List.cons_append] at same
  rw [List.cons_append] at named
  rw [same]
  unfold markAt?
  rw [after?_comment notMark]
  simp [after?, notSlash, named, ends, read]

/-- An end tag that is written plainly is a mark. -/
theorem markAt?_closing {inside : List Char} (h : IsTag name ['<', '/'] text inside)
    (behind : List Char) : markAt? name (text ++ behind) = some (.closing, behind) := by
  obtain ⟨spelled, spells, same⟩ := h.text_append behind
  obtain ⟨named, ends, read⟩ := tag_of_spells spells h.ends h.enclosed behind
  rw [same]
  unfold markAt?
  rw [List.cons_append, List.singleton_append, after?_comment (by decide)]
  simp [after?, named, ends, read]

/-- A comment that ends in the first two hyphens and bracket is a mark. -/
theorem markAt?_comment {inside : List Char}
    (first : ∀ i < inside.length, startsWith "-->".toList ((inside ++ "-->".toList).drop i) = false)
    (behind : List Char) :
    markAt? name ("<!--".toList ++ inside ++ "-->".toList ++ behind) = some (.comment, behind) := by
  -- whether the end of a comment starts is seen by three characters
  have still : ∀ i < inside.length,
      startsWith "-->".toList ((inside ++ ("-->".toList ++ behind)).drop i) = false := by
    intro i less
    rw [Bool.eq_false_iff]
    intro starts
    refine Bool.false_ne_true ((first i less).symm.trans (startsWith_iff.mpr ?_))
    have long : "-->".toList.length ≤ ((inside ++ "-->".toList).drop i).length := by
      rw [List.length_drop, List.length_append]
      omega
    rw [← List.append_assoc, List.drop_append_of_le_length
      (by rw [List.length_append]; omega)] at starts
    exact List.prefix_of_prefix_length_le (startsWith_iff.mp starts) (List.prefix_append _ _) long
  have found : splitAtFirst "-->".toList (inside ++ ("-->".toList ++ behind)) =
      some (inside, behind) := by
    rw [splitAtFirst, breakWhere_append still (startsWith_iff.mpr (List.prefix_append _ _))]
    simp
  have opened : after? "<!--".toList ("<!--".toList ++ inside ++ "-->".toList ++ behind) =
      some (inside ++ ("-->".toList ++ behind)) :=
    after?_iff.mpr (by simp only [List.append_assoc])
  unfold markAt?
  rw [opened]
  simp only [found]
  rfl

/-! ## Slices that are written plainly -/

/-- What a slice is for the elements of a name. -/
def markOf (name : String) (slice : Slice) : Option Mark :=
  match slice.event with
  | some (.startTag own _ selfClosing) =>
    if own = name then some (if selfClosing then .closed else .opening) else none
  | some (.endTag own) => if own = name then some .closing else none
  | _ => none

/-- A slice as the scan expects it in front of some text: the tags of the name and the comments are
written plainly, and nothing else looks like one of them. -/
inductive Clear (name : String) (behind : List Char) : Slice → Prop
  | opening {text inside : List Char} {attributes : List Markup.Attribute} {selfClosing : Bool} :
      IsTag name.toList ['<'] text inside → closesItself inside = selfClosing →
        Clear name behind ⟨text, some (.startTag name attributes selfClosing)⟩
  | closing {text inside : List Char} :
      IsTag name.toList ['<', '/'] text inside → Clear name behind ⟨text, some (.endTag name)⟩
  | comment {inside content : List Char} :
      (∀ i < inside.length, startsWith "-->".toList ((inside ++ "-->".toList).drop i) = false) →
        Clear name behind ⟨"<!--".toList ++ inside ++ "-->".toList, some (.comment content)⟩
  | other {slice : Slice} :
      markOf name slice = none →
      (∀ i < slice.text.length, looksLike name.toList ((slice.text ++ behind).drop i) = false) →
        Clear name behind slice

/-- Slices one behind the other that are all written plainly. -/
def AllClear (name : String) (behind : List Char) : List Slice → Prop
  | [] => True
  | slice :: rest => Clear name (sliced rest ++ behind) slice ∧ AllClear name behind rest

theorem Clear.startTag {name : String} {slice : Slice} (clear : Clear name behind slice)
    {attributes : List Markup.Attribute} {selfClosing : Bool}
    (event : slice.event = some (.startTag name attributes selfClosing)) :
    ∃ inside, IsTag name.toList ['<'] slice.text inside ∧ closesItself inside = selfClosing := by
  cases clear with
  | opening isTag closes =>
      cases event
      exact ⟨_, isTag, closes⟩
  | closing _ | comment _ => cases event
  | other none' _ => simp [markOf, event] at none'

theorem Clear.endTag {name : String} {slice : Slice} (clear : Clear name behind slice)
    (event : slice.event = some (.endTag name)) :
    ∃ inside, IsTag name.toList ['<', '/'] slice.text inside := by
  cases clear with
  | closing isTag => exact ⟨_, isTag⟩
  | opening _ _ | comment _ => cases event
  | other none' _ => simp [markOf, event] at none'

theorem allClear_append {name : String} {slices others : List Slice} :
    AllClear name behind (slices ++ others) ↔
      AllClear name (sliced others ++ behind) slices ∧ AllClear name behind others := by
  induction slices with
  | nil => simp [AllClear]
  | cons slice rest ih =>
      rw [List.cons_append, AllClear, AllClear, ih, Markup.sliced_append, List.append_assoc, and_assoc]

theorem IsTag.text_ne_nil {opening inside : List Char} (h : IsTag name opening text inside) :
    text ≠ [] := by
  obtain ⟨spelled, rfl, -⟩ := h.written
  simp

/-- A slice is passed over, and counted if it is a tag of the name. -/
theorem contentOf_slice {name : String} {slice : Slice} (clear : Clear name behind slice)
    {now : Nat} (goes : levelBehind open' (markOf name slice).toList = some now) :
    contentOf name.toList open' (slice.text ++ behind) =
      (contentOf name.toList now behind).map (slice.text ++ ·) := by
  have marked : ∀ mark, (markOf name slice).toList = [mark] → level open' mark = some now := by
    intro mark same
    rw [same] at goes
    simpa [levelBehind] using goes
  cases clear with
  | @opening text inside attributes selfClosing isTag closes =>
      have goes' := marked (if selfClosing then .closed else .opening) (by simp [markOf])
      rw [contentOf_mark isTag.text_ne_nil (markAt?_opening isTag behind), closes, goes']
  | closing isTag =>
      have goes' := marked .closing (by simp [markOf])
      rw [contentOf_mark isTag.text_ne_nil (markAt?_closing isTag behind), goes']
  | @comment inside content first =>
      have same : open' = now := by simpa [markOf, levelBehind] using goes
      have goes' : level open' .comment = some now := by
        rw [← same]
        cases open' <;> rfl
      rw [contentOf_mark (by simp) (markAt?_comment first behind), goes']
  | other none' unmarked =>
      rw [none'] at goes
      have same : open' = now := by simpa [levelBehind] using goes
      rw [contentOf_unmarked unmarked, same]

theorem levelBehind_append (open' : Nat) (marks more : List Mark) :
    levelBehind open' (marks ++ more) =
      (levelBehind open' marks).bind fun now => levelBehind now more := by
  induction marks generalizing open' with
  | nil => rfl
  | cons mark rest ih =>
      rw [List.cons_append, levelBehind, levelBehind, Option.bind_assoc]
      exact congrArg _ (funext fun now => ih now)

/-- The tags of a name among some slices. -/
def tagMarks (name : String) (slices : List Slice) : List Mark := slices.filterMap (markOf name)

theorem tagMarks_cons (name : String) (slice : Slice) (rest : List Slice) :
    tagMarks name (slice :: rest) = (markOf name slice).toList ++ tagMarks name rest := by
  rw [tagMarks, List.filterMap_cons]
  cases markOf name slice <;> rfl

/-- Slices are passed over as long as none of their end tags closes the element. -/
theorem contentOf_slices {name : String} {slices : List Slice} (clear : AllClear name behind slices)
    {now : Nat} (goes : levelBehind open' (tagMarks name slices) = some now) :
    contentOf name.toList open' (sliced slices ++ behind) =
      (contentOf name.toList now behind).map (sliced slices ++ ·) := by
  induction slices generalizing open' with
  | nil =>
      cases goes
      simp [sliced]
  | cons slice rest ih =>
      rw [tagMarks_cons, levelBehind_append] at goes
      obtain ⟨between, own, later⟩ := Option.bind_eq_some_iff.mp goes
      rw [Markup.sliced_cons, List.append_assoc, contentOf_slice clear.1 own, ih clear.2 later,
        Option.map_map]
      simp [Function.comp_def]

/-- As many further elements are open behind some marks as start tags and end tags leave. -/
theorem levelBehind_count {marks : List Mark} {now : Nat} (goes : levelBehind open' marks = some now) :
    now + marks.count .closing = open' + marks.count .opening := by
  induction marks generalizing open' with
  | nil =>
      cases goes
      rfl
  | cons mark rest ih =>
      obtain ⟨between, own, later⟩ := Option.bind_eq_some_iff.mp goes
      have counts := ih later
      cases mark <;> cases open' <;> simp [level] at own <;> subst own <;>
        simp only [List.count_cons, beq_iff_eq, reduceCtorEq, if_true, if_false] <;> omega

/-! ## The source of an element -/

/-- The content of an element is looked for behind its start tag, unless that closes it. -/
theorem innerSource_opening {page : List Char} {offset : Nat} {inside : List Char}
    (there : page.drop offset = text ++ behind) (isTag : IsTag name ['<'] text inside) :
    innerSource page name offset = if closesItself inside then none else contentOf name 0 behind := by
  obtain ⟨spelled, spells, same⟩ := isTag.text_append behind
  obtain ⟨-, -, read⟩ := tag_of_spells spells isTag.ends isTag.enclosed behind
  have whole : tagRest none (spelled ++ (inside ++ '>' :: behind)) =
      some (spelled ++ inside, behind) := by
    rw [tagRest_enclosed spells.enclosed, read]
    rfl
  -- the name of a tag does not end in a slash
  have closes : closesItself (spelled ++ inside) = closesItself inside := by
    cases inside with
    | nil =>
        have last : spelled.getLast? ≠ some '/' := fun slash =>
          (spells.plain '/' (List.mem_of_getLast? slash)).2.2.2 rfl
        simpa [closesItself] using last
    | cons c rest => simp [closesItself, List.getLast?_append, List.getLast?_cons]
  unfold innerSource
  rw [there, same, List.singleton_append]
  simp only [after?, beq_self_eq_true, if_true, Option.bind_eq_bind, Option.bind_some, whole, closes]
  cases closesItself inside <;> rfl

end MessageCatalog.Occurrence
