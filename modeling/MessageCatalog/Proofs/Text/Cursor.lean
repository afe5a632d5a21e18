import Mathlib.Data.List.Basic
import MessageCatalog.Proofs.Text.Search
import MessageCatalog.Text.Cursor

/-!
# MessageCatalog.Proofs.Text.Cursor -- cursors and the characters that are left

A position is found by counting: its line by the line ends in front of it, its column by the
characters behind the last of them. So it names one place of a text, and one that is there.

A cursor inside a text is the same as the end of the text that it faces: whatever a cursor is asked
can be said of that end, and where it moves to faces an end of it. A reader that only knows the
characters that are left is followed by a walk over the whole text if the walk comes to the same
result wherever those characters are the end of a text.
-/

namespace MessageCatalog.Text

/-! ## Positions of a text -/

namespace Position

variable {text : List Char}

theorem line_foldl_next (p : Position) (text : List Char) :
    (text.foldl next p).line = p.line + text.count '\n' := by
  induction text generalizing p with
  | nil => rfl
  | cons c rest ih =>
      rw [List.foldl_cons, ih, next, List.count_cons]
      split
      · exact Nat.add_right_comm _ _ _
      · rfl

theorem column_foldl_next (p : Position) (one : '\n' ∉ text) :
    (text.foldl next p).column = p.column + text.length := by
  induction text generalizing p with
  | nil => rfl
  | cons c rest ih =>
      obtain ⟨other, later⟩ := not_or.mp (mt List.mem_cons.mpr one)
      have same : (c == '\n') = false := beq_eq_false_iff_ne.mpr (Ne.symm other)
      rw [List.foldl_cons, ih _ later, next, same, List.length_cons]
      exact Nat.add_right_comm _ _ _

/-- The line behind a text. -/
theorem line_after (text : List Char) : (Position.after text).line = 1 + text.count '\n' :=
  line_foldl_next _ _

/-- A position moves with every character. -/
theorem foldl_next_ne (p : Position) (some : text ≠ []) : text.foldl next p ≠ p := by
  intro same
  by_cases ends : '\n' ∈ text
  · have line := congrArg Position.line same
    rw [line_foldl_next] at line
    have := List.count_pos_iff.mpr ends
    omega
  · have column := congrArg Position.column same
    rw [column_foldl_next _ ends] at column
    have := List.length_pos_iff.mpr some
    omega

/-- A position denotes one place of a text. -/
theorem at_injective {i j : Nat} (first : i ≤ text.length) (second : j ≤ text.length)
    (same : Position.at text i = Position.at text j) : i = j := by
  wlog before : i ≤ j generalizing i j
  · exact (this second first same.symm (Nat.le_of_not_le before)).symm
  -- what stands between the two places moves no position
  have between : text.take j = text.take i ++ (text.drop i).take (j - i) := by
    rw [← List.take_add, Nat.add_sub_cancel' before]
  have stays : ((text.drop i).take (j - i)).foldl next (Position.after (text.take i)) =
      Position.after (text.take i) := by
    rw [Position.at, Position.at, between, Position.after, Position.after, List.foldl_append] at same
    exact same.symm
  have none : (text.drop i).take (j - i) = [] := not_not.mp fun some => foldl_next_ne _ some stays
  have length := congrArg List.length none
  rw [List.length_take, List.length_drop, List.length_nil] at length
  omega

/-- The lines of a text; the last one is what stands behind the last line feed. -/
def linesOf (text : List Char) : List (List Char) := splitOnChar (· == '\n') text

theorem exists_linesOf (text : List Char) : ∃ first others, linesOf text = first :: others :=
  List.exists_cons_of_ne_nil (splitOnChar_ne_nil text)

theorem linesOf_feed (rest : List Char) : linesOf ('\n' :: rest) = [] :: linesOf rest := rfl

theorem linesOf_cons {c : Char} {rest first : List Char} {others : List (List Char)}
    (other : c ≠ '\n') (split : linesOf rest = first :: others) :
    linesOf (c :: rest) = (c :: first) :: others := by
  have inside : ¬(c == '\n') = true := by simpa using other
  rw [linesOf, splitOnChar, if_neg inside, ← linesOf, split]

/-- A position is inside a text: its line is one of the lines of the text, and its column that of a
character of this line or of the place behind the last one. -/
structure Inside (p : Position) (text : List Char) : Prop where
  line : 1 ≤ p.line ∧ p.line ≤ 1 + text.count '\n'
  column : 1 ≤ p.column ∧
    ∃ line, (linesOf text)[p.line - 1]? = some line ∧ p.column ≤ line.length + 1

theorem one_le_column_foldl_next {p : Position} (first : 1 ≤ p.column) (text : List Char) :
    1 ≤ (text.foldl next p).column := by
  induction text generalizing p with
  | nil => exact first
  | cons c rest ih =>
      refine ih ?_
      rw [next]
      split
      · exact Nat.le_refl 1
      · exact Nat.le_add_left 1 _

/-- From a position on, the column stays within the line that is reached: within what a text has of
it, or behind what was there already if the text goes on with the line of the position. -/
theorem column_foldl_next_le (text : List Char) (p : Position) (k : Nat) :
    ∃ line, (linesOf text)[(text.take k).count '\n']? = some line ∧
      ((text.take k).foldl next p).column ≤
        line.length + if '\n' ∈ text.take k then 1 else p.column := by
  induction text generalizing p k with
  | nil => exact ⟨[], by simp [linesOf, splitOnChar]⟩
  | cons c rest ih =>
      cases k with
      | zero =>
          obtain ⟨line, lines, split⟩ := exists_linesOf (c :: rest)
          exact ⟨line, by simp [split]⟩
      | succ k =>
          obtain ⟨line, here, within⟩ := ih (p.next c) k
          rw [List.take_succ_cons, List.foldl_cons, List.count_cons]
          by_cases ends : c = '\n'
          · subst ends
            have moved : p.next '\n' = ⟨p.line + 1, 1⟩ := rfl
            rw [moved, ite_self] at within
            rw [moved, linesOf_feed, if_pos (beq_self_eq_true _), if_pos List.mem_cons_self]
            exact ⟨line, here, within⟩
          · have moved : p.next c = ⟨p.line, p.column + 1⟩ := if_neg (by simpa using ends)
            obtain ⟨first, others, split⟩ := exists_linesOf rest
            rw [moved] at within
            rw [split] at here
            rw [moved, linesOf_cons ends split, if_neg (by simpa using ends), Nat.add_zero]
            simp only [List.mem_cons, Ne.symm ends, false_or]
            -- the first line has one character more, the others are as they were
            by_cases later : '\n' ∈ rest.take k
            · obtain ⟨m, count⟩ := Nat.exists_eq_add_one.mpr (List.count_pos_iff.mpr later)
              rw [count, List.getElem?_cons_succ] at here
              rw [if_pos later] at within ⊢
              rw [count, List.getElem?_cons_succ]
              exact ⟨line, here, within⟩
            · rw [List.count_eq_zero.mpr later, List.getElem?_cons_zero, Option.some.injEq] at here
              subst here
              rw [if_neg later] at within ⊢
              rw [List.count_eq_zero.mpr later, List.getElem?_cons_zero]
              refine ⟨c :: first, rfl, Nat.le_trans within ?_⟩
              show first.length + (p.column + 1) ≤ first.length + 1 + p.column
              omega

/-- The position of a place in a text is inside the text. -/
theorem at_inside (text : List Char) (k : Nat) : (Position.at text k).Inside text := by
  have line : (Position.at text k).line = 1 + (text.take k).count '\n' := line_after _
  obtain ⟨reached, here, within⟩ := column_foldl_next_le text Position.start k
  refine ⟨⟨?_, ?_⟩, one_le_column_foldl_next (Nat.le_refl 1) _, reached, ?_, ?_⟩
  · rw [line]
    exact Nat.le_add_right 1 _
  · rw [line]
    exact Nat.add_le_add_left ((List.take_sublist k text).count_le '\n') 1
  · rw [line, Nat.add_sub_cancel_left]
    exact here
  · rwa [Position.start, ite_self] at within

end Position

namespace Cursor

variable {ε : Type} {source rest : List Char}

/-- The cursor over a text that has a given end ahead. -/
def facing (source rest : List Char) : Cursor := ⟨source, source.length - rest.length⟩

theorem facing_self (source : List Char) : facing source source = ofText source := by
  rw [facing, Nat.sub_self, ofText]

/-! ## What a cursor is asked -/

theorem ahead_facing (inside : rest <:+ source) : (facing source rest).ahead = rest := by
  obtain ⟨before, rfl⟩ := inside
  have offset : (before ++ rest).length - rest.length = before.length := by
    rw [List.length_append, Nat.add_sub_cancel]
  rw [ahead, facing, offset, List.drop_left]

theorem atEnd_facing (inside : rest <:+ source) : (facing source rest).atEnd = rest.isEmpty := by
  have shorter := inside.length_le
  cases rest with
  | nil => simp [atEnd, facing]
  | cons c rest =>
      rw [List.length_cons] at shorter
      refine decide_eq_false ?_
      show ¬source.length ≤ source.length - (rest.length + 1)
      omega

theorem peek?_facing (inside : rest <:+ source) (places : Nat) :
    (facing source rest).peek? places = rest[places]? := by
  have ahead : (facing source rest).ahead[places]? = rest[places]? := by rw [ahead_facing inside]
  rwa [Cursor.ahead, List.getElem?_drop] at ahead

theorem look_facing {c : Char} (inside : c :: rest <:+ source) :
    (facing source (c :: rest)).look = (.ok c : Walk ε Char) := by
  have here : (facing source (c :: rest)).current? = some c := peek?_facing inside 0
  rw [look, current, here]
  rfl

theorem sees_facing (inside : rest <:+ source) (inClass : Char → Bool) :
    (facing source rest).sees inClass = (.ok (rest.head?.any inClass) : Walk ε Bool) := by
  rw [sees, atEnd_facing inside]
  cases rest with
  | nil => rfl
  | cons c rest =>
      rw [look_facing inside]
      rfl

theorem sliceAhead_facing (inside : rest <:+ source) (count : Nat) :
    (facing source rest).sliceAhead count = rest.take count := by
  rw [sliceAhead, ahead_facing inside]

theorem sliceFrom_facing {part : List Char} (inside : part ++ rest <:+ source) :
    (facing source rest).sliceFrom (facing source (part ++ rest)).offset = part := by
  obtain ⟨before, rfl⟩ := inside
  have start : (facing (before ++ (part ++ rest)) (part ++ rest)).offset = before.length := by
    simp [facing]
  have stop : (facing (before ++ (part ++ rest)) rest).offset = (before ++ part).length := by
    simp only [facing, List.length_append]
    omega
  rw [sliceFrom, start, stop, facing, ← List.append_assoc, List.take_left, List.drop_left]

theorem position_facing (source rest : List Char) :
    (facing source rest).position = Position.at source (source.length - rest.length) := by
  have within : source.length - rest.length - source.length = 0 := by omega
  simp only [position, facing, within, Nat.add_zero]

/-! ## Where a cursor moves -/

theorem advance_facing (inside : rest <:+ source) (count : Nat) :
    (facing source rest).advance count = facing source (rest.drop count) := by
  have shorter := inside.length_le
  simp only [advance, facing, List.length_drop, mk.injEq, true_and]
  omega

theorem advance_facing_cons {c : Char} (inside : c :: rest <:+ source) :
    (facing source (c :: rest)).advance 1 = facing source rest := advance_facing inside 1

theorem skipBlanks_facing (inside : rest <:+ source) :
    (facing source rest).skipBlanks = facing source (rest.dropWhile isBlank) := by
  have shorter := inside.length_le
  have parts := congrArg List.length (List.takeWhile_append_dropWhile (p := isBlank) (l := rest))
  rw [List.length_append] at parts
  rw [skipBlanks, ahead_facing inside]
  simp only [facing, mk.injEq, true_and]
  omega

theorem passWhile_facing (inside : rest <:+ source) (inClass : Char → Bool) :
    (facing source rest).passWhile inClass =
      (.ok (facing source (rest.dropWhile inClass)) : Walk ε Cursor) := by
  induction rest with
  | nil =>
      have done : (facing source []).atEnd = true := atEnd_facing inside
      rw [passWhile, dif_pos done, List.dropWhile_nil]
  | cons c rest ih =>
      have later := ih ((List.suffix_cons c rest).trans inside)
      have more : ¬(facing source (c :: rest)).atEnd = true := by simp [atEnd_facing inside]
      rw [passWhile, dif_neg more, look_facing inside, advance_facing_cons inside, later,
        List.dropWhile_cons]
      show (if inClass c then _ else pure _) = _
      cases inClass c <;> rfl

/-- Two ends of a text that start at the same place are the same. -/
theorem facing_offset_eq {part : List Char} (inside : part ++ rest <:+ source) :
    ((facing source rest).offset == (facing source (part ++ rest)).offset) = part.isEmpty := by
  have shorter := inside.length_le
  rw [List.length_append] at shorter
  rw [Bool.eq_iff_iff, beq_iff_eq, List.isEmpty_iff, ← List.length_eq_zero_iff]
  simp only [facing, List.length_append]
  omega

/-! ## Runs of characters of a class -/

theorem suffix_dropWhile (inside : rest <:+ source) (inClass : Char → Bool) :
    rest.dropWhile inClass <:+ source := (List.dropWhile_suffix inClass).trans inside

theorem sliceFrom_dropWhile (inside : rest <:+ source) (inClass : Char → Bool) :
    (facing source (rest.dropWhile inClass)).sliceFrom (facing source rest).offset =
      rest.takeWhile inClass := by
  have parts : rest.takeWhile inClass ++ rest.dropWhile inClass = rest :=
    List.takeWhile_append_dropWhile
  have run := sliceFrom_facing (parts.symm ▸ inside)
  rwa [parts] at run

theorem offset_dropWhile (inside : rest <:+ source) (inClass : Char → Bool) :
    ((facing source (rest.dropWhile inClass)).offset == (facing source rest).offset) =
      (rest.takeWhile inClass).isEmpty := by
  have parts : rest.takeWhile inClass ++ rest.dropWhile inClass = rest :=
    List.takeWhile_append_dropWhile
  have run := facing_offset_eq (parts.symm ▸ inside)
  rwa [parts] at run

end Cursor

/-! ## Walks that follow a reader -/

variable {ε φ α β γ δ : Type} {stop : φ → Stop ε}

/-- A walk follows a reader: both come to results, which belong together, or the reader finds a
fault and the walk stops with that fault. So a walk that follows a reader stops in no other way. -/
inductive Follows (stop : φ → Stop ε) (belong : α → β → Prop) : Except φ α → Walk ε β → Prop where
  | ok {a : α} {b : β} : belong a b → Follows stop belong (.ok a) (.ok b)
  | fault (why : φ) : Follows stop belong (.error why) (.error (stop why))

/-- A cursor faces an end of a text. -/
def Faces (source rest : List Char) (c : Cursor) : Prop :=
  c = .facing source rest ∧ rest <:+ source

/-- A value and the characters that are left belong to a value and a cursor that faces those
characters. -/
def Reaches (source : List Char) (value : α → β) (read : α × List Char)
    (walk : β × Cursor) : Prop :=
  walk.1 = value read.1 ∧ Faces source read.2 walk.2

theorem Walk.ok_bind (a : α) (next : α → Walk ε β) : (.ok a : Walk ε α) >>= next = next a := rfl

namespace Follows

variable {belong : α → β → Prop} {belong' : γ → δ → Prop} {belong'' : γ → β → Prop}
  {read : Except φ α} {walk : Walk ε β}

/-- A fault of the reader is one of the walk, whatever would go on behind it. -/
theorem fault_bind (first : Follows stop belong read walk) {why : φ} (found : read = .error why)
    (next : β → Walk ε δ) : Follows stop belong' (.error why) (walk >>= next) := by
  subst found
  cases first with
  | fault why => exact .fault why

/-- Behind a result the walk goes on from what belongs to it. -/
theorem ok_bind (first : Follows stop belong read walk) {a : α} (found : read = .ok a)
    {goal : Except φ γ} {next : β → Walk ε δ}
    (later : ∀ b, belong a b → Follows stop belong' goal (next b)) :
    Follows stop belong' goal (walk >>= next) := by
  subst found
  cases first with
  | ok same => exact later _ same

/-- Behind a character the walk goes on from the cursor that faces what is left. -/
theorem faced {source rest : List Char} {read : Except φ (List Char)} {walk : Walk ε Cursor}
    (first : Follows stop (Faces source) read walk) (found : read = .ok rest)
    {goal : Except φ γ} {next : Cursor → Walk ε δ}
    (later : rest <:+ source → Follows stop belong' goal (next (.facing source rest))) :
    Follows stop belong' goal (walk >>= next) := by
  refine first.ok_bind found ?_
  rintro c ⟨rfl, inside⟩
  exact later inside

/-- Behind a value the walk goes on with that value from the cursor that faces what is left. -/
theorem reached {source rest : List Char} {value : α → β} {a : α}
    {read : Except φ (α × List Char)} {walk : Walk ε (β × Cursor)}
    (first : Follows stop (Reaches source value) read walk) (found : read = .ok (a, rest))
    {goal : Except φ γ} {next : β × Cursor → Walk ε δ}
    (later : rest <:+ source → Follows stop belong' goal (next (value a, .facing source rest))) :
    Follows stop belong' goal (walk >>= next) := by
  refine first.ok_bind found ?_
  rintro ⟨b, c⟩ ⟨same, here, inside⟩
  dsimp only at same here
  subst same here
  exact later inside

/-- The last part of a reader faults for the whole of it. -/
theorem fault_last (last : Follows stop belong read walk) {why : φ} (found : read = .error why) :
    Follows stop belong'' (.error why) walk := by
  subst found
  cases last with
  | fault why => exact .fault why

/-- The last part of a reader completes its value, and the walk has completed it already. -/
theorem ok_last (last : Follows stop belong read walk) {a : α} (found : read = .ok a) {c : γ}
    (complete : ∀ b, belong a b → belong'' c b) : Follows stop belong'' (.ok c) walk := by
  subst found
  cases last with
  | ok same => exact .ok (complete _ same)

theorem eq_error (h : Follows stop belong read walk) {why : φ} (found : read = .error why) :
    walk = .error (stop why) := by
  subst found
  cases h with
  | fault why => rfl

theorem eq_ok (h : Follows stop belong read walk) {a : α} (found : read = .ok a) :
    ∃ b, walk = .ok b ∧ belong a b := by
  subst found
  cases h with
  | ok same => exact ⟨_, rfl, same⟩

/-- What a reader completes, the walk has completed already. -/
theorem map (h : Follows stop belong read walk) {complete : α → γ}
    (completed : ∀ a b, belong a b → belong'' (complete a) b) :
    Follows stop belong'' (read.map complete) walk := by
  cases h with
  | ok same => exact .ok (completed _ _ same)
  | fault why => exact .fault why

/-- A walk that comes to the results of a reader themselves is that reader, its faults put in the
way of the walk. -/
theorem eq_mapError {walk : Walk ε α} (h : Follows stop Eq read walk) :
    walk = read.mapError stop := by
  cases h with
  | ok same =>
      subst same
      rfl
  | fault why => rfl

end Follows

end MessageCatalog.Text
