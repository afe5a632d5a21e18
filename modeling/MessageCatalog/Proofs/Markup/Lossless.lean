import MessageCatalog.Markup.Tree
import MessageCatalog.Proofs.Markup.PlainText

/-!
# MessageCatalog.Proofs.Markup.Lossless -- text that is read as it stands

A text without brackets and references should be read as it stands. It is, unless the reader loses a
character: a semicolon behind a name that stands for nothing, an ampersand before a single letter at
the end, or a name in a run that reaches the end. Losing makes a text shorter, so that no loss is made
up for by another one. The minifier writes the names out as references, and loses nothing that is not
lost anyhow.
-/

namespace MessageCatalog.Markup

open MessageCatalog.Text

/-! ## Named references are shorter than their names -/

/-- The text of an entry of the table is not longer than its name without the semicolon. -/
def isShortEntry (entry : String × String) : Bool :=
  match entry.2.toList with
  | [] | [_] => true
  | [_, _] => 3 ≤ entry.1.toList.length
  | _ => false

/-- No text of the table is longer than its name. -/
theorem namedReferences_short : namedReferences.toList.all isShortEntry = true := by
  simp only [namedReferences, Array.toList_append, List.all_append, Bool.and_eq_true]
  refine ⟨⟨⟨⟨⟨⟨⟨⟨⟨⟨⟨⟨⟨⟨⟨⟨⟨?_, ?_⟩, ?_⟩, ?_⟩, ?_⟩, ?_⟩, ?_⟩, ?_⟩, ?_⟩, ?_⟩, ?_⟩, ?_⟩, ?_⟩, ?_⟩, ?_⟩,
    ?_⟩, ?_⟩, ?_⟩
  all_goals decide +kernel

theorem all_of_find? {table : Array (String × String)} {entry : String × String}
    {test property : String × String → Bool} (all : table.toList.all property = true)
    (found : table.find? test = some entry) : property entry = true :=
  List.all_eq_true.mp all entry (Array.mem_toList_iff.mpr (Array.mem_of_find?_eq_some found))

theorem length_namedReference? {name text : List Char} (h : namedReference? name = some text) :
    text.length ≤ 1 ∨ text.length = 2 ∧ 3 ≤ name.length := by
  rw [namedReference?, Option.map_eq_some_iff] at h
  obtain ⟨entry, found, rfl⟩ := h
  have own : (entry.1 == String.ofList name) = true :=
    Array.find?_some (p := fun entry : String × String => entry.1 == String.ofList name) found
  have same : entry.1.toList = name := by rw [beq_iff_eq.mp own, String.toList_ofList]
  have short := all_of_find? namedReferences_short found
  rw [isShortEntry, same] at short
  split at short
  · next none => simp [none]
  · next one => simp [one]
  · next two =>
      rw [decide_eq_true_eq] at short
      exact Or.inr ⟨by simp [two], short⟩
  · cases short

/-- The text of a reference is not longer than its name. -/
theorem length_namedReferenceOf? {name text : List Char} (some : name ≠ [])
    (h : namedReferenceOf? name = .some text) : text.length ≤ name.length := by
  have more : 1 ≤ name.length := List.length_pos_iff.mpr some
  rw [namedReferenceOf?, Option.or_eq_some_iff] at h
  rcases h with closed | ⟨-, bare⟩
  · rcases length_namedReference? closed with short | ⟨two, long⟩
    · omega
    · rw [List.length_append, List.length_singleton] at long
      omega
  · rcases length_namedReference? bare with short | ⟨two, long⟩ <;> omega

/-- The names of two letters without a semicolon. -/
def shortNames : List String := ["GT", "LT", "gt", "lt"]

/-- The name of an entry of the table has two characters in front of its semicolon. -/
def isLongName (entry : String × String) : Bool :=
  3 ≤ entry.1.utf8ByteSize || shortNames.contains entry.1

/-- No name of the table is a single letter. -/
theorem namedReferences_long : namedReferences.toList.all isLongName = true := by
  simp only [namedReferences, Array.toList_append, List.all_append, Bool.and_eq_true]
  refine ⟨⟨⟨⟨⟨⟨⟨⟨⟨⟨⟨⟨⟨⟨⟨⟨⟨?_, ?_⟩, ?_⟩, ?_⟩, ?_⟩, ?_⟩, ?_⟩, ?_⟩, ?_⟩, ?_⟩, ?_⟩, ?_⟩, ?_⟩, ?_⟩, ?_⟩,
    ?_⟩, ?_⟩, ?_⟩
  all_goals decide +kernel

theorem utf8ByteSize_ascii {chars : List Char} (ascii : ∀ c ∈ chars, c.utf8Size = 1) :
    (String.ofList chars).utf8ByteSize = chars.length := by
  induction chars with
  | nil => rfl
  | cons c rest ih =>
      rw [List.forall_mem_cons] at ascii
      rw [String.ofList_cons, String.utf8ByteSize_append, String.utf8ByteSize_singleton, ascii.1,
        ih ascii.2, List.length_cons, Nat.add_comm]

theorem two_lt_of_namedReference? {name text : List Char} (ascii : ∀ c ∈ name, c.utf8Size = 1)
    (h : namedReference? name = some text) :
    3 ≤ name.length ∨ name ∈ shortNames.map String.toList := by
  rw [namedReference?, Option.map_eq_some_iff] at h
  obtain ⟨entry, found, -⟩ := h
  have own : (entry.1 == String.ofList name) = true :=
    Array.find?_some (p := fun entry : String × String => entry.1 == String.ofList name) found
  have long := all_of_find? namedReferences_long found
  rw [isLongName, beq_iff_eq.mp own, utf8ByteSize_ascii ascii, Bool.or_eq_true,
    decide_eq_true_eq] at long
  refine long.imp_right fun two => ?_
  have there : String.ofList name ∈ shortNames := List.contains_iff_mem.mp two
  have chars := List.mem_map_of_mem (f := String.toList) there
  rw [String.toList_ofList] at chars
  exact chars

theorem not_shortNames {name : List Char} (short : name.length ≤ 1) :
    name ∉ shortNames.map String.toList ∧ name ++ [';'] ∉ shortNames.map String.toList := by
  cases name with
  | nil => decide
  | cons c rest =>
      cases rest with
      | nil => simp [shortNames]
      | cons d rest => simp at short

/-- A letter, or nothing, is no name of a reference. -/
theorem namedReferenceOf?_short {name : List Char} (ascii : ∀ c ∈ name, c.utf8Size = 1)
    (short : name.length ≤ 1) : namedReferenceOf? name = none := by
  rw [namedReferenceOf?, Option.or_eq_none_iff]
  refine ⟨Option.eq_none_iff_forall_ne_some.mpr fun text closed => ?_,
    Option.eq_none_iff_forall_ne_some.mpr fun text bare => ?_⟩
  · have closedAscii : ∀ c ∈ name ++ [';'], c.utf8Size = 1 := by
      intro c there
      rcases List.mem_append.mp there with own | semicolon
      · exact ascii c own
      · rw [List.mem_singleton.mp semicolon]
        rfl
    rcases two_lt_of_namedReference? closedAscii closed with long | two
    · rw [List.length_append, List.length_singleton] at long
      omega
    · exact absurd two (not_shortNames short).2
  · rcases two_lt_of_namedReference? ascii bare with long | two
    · omega
    · exact absurd two (not_shortNames short).1

/-! ## What is lost -/

/-- What stands behind an ampersand makes the reader lose a character. -/
inductive Loses (after : List Char) : Prop where
  /-- The ampersand is left out before a single letter at the end. -/
  | letter : isOneLetter after = true → Loses after
  /-- The semicolon behind a name is taken for the end of a reference. -/
  | semicolon : nameRun after ≠ [] → (after.drop (nameRun after).length).head? = some ';' →
      Loses after
  /-- A run that reaches the end is cut where its front is the name of a reference. -/
  | reference (name : List Char) : nameRun after = after → Fronts name after →
      (namedReferenceOf? name).isSome = true → Loses after

/-- Behind no ampersand of a text a character is lost. -/
def Lossless (text : List Char) : Prop := Behind (fun after => ¬Loses after) text

/-- Behind no ampersand of a text the name of a reference stands. -/
def Referenceless (text : List Char) : Prop :=
  Behind (fun after => namedReferenceOf? (nameRun after) = none) text

/-- A text as it is read. -/
def reading (text : List Char) : List Char := retold namedText text

theorem namedText_none {name : List Char} (h : namedReferenceOf? name = none) :
    namedText name = '&' :: name := by
  rw [namedText, h]
  rfl

/-! ## Names and what follows them -/

/-- A letter with letters, digits, hyphens and dots. -/
def IsReferenceName (name : List Char) : Prop :=
  ∃ c rest, name = c :: rest ∧ isAsciiLetter c = true ∧
    ∀ d ∈ rest, isReferenceNameCharacter d = true

theorem isReferenceName_nameRun {text : List Char} (some : nameRun text ≠ []) :
    IsReferenceName (nameRun text) := by
  cases text with
  | nil => exact absurd rfl some
  | cons c rest =>
      by_cases letter : isAsciiLetter c
      · rw [nameRun, if_pos letter]
        exact ⟨c, _, rfl, letter, fun d there => List.mem_takeWhile_imp there⟩
      · rw [nameRun, if_neg letter] at some
        exact absurd rfl some

/-- What is read as a name is one, and the text starts with it. -/
theorem isReferenceName_of_read {name rest : List Char} (h : readReferenceName rest = some name) :
    IsReferenceName name ∧ ∃ tail, rest = name ++ tail := by
  have named := named_readReferenceName rest
  rw [h] at named
  cases named with
  | followed c after some split => exact ⟨isReferenceName_nameRun some, c :: after, split⟩
  | front whole fronts =>
      have ⟨mark, others, split, _, _⟩ := fronts
      have some : nameRun rest ≠ [] := by
        rw [whole, split]
        simp
      obtain ⟨c, run, own, letter, all⟩ := isReferenceName_nameRun some
      rw [whole] at own
      rw [own] at fronts
      obtain ⟨front, rfl, last, more, inside, _, _⟩ := (fronts_cons letter).mp fronts
      refine ⟨⟨c, front, rfl, letter, fun d there => all d ?_⟩, mark :: others, split⟩
      rw [inside]
      exact List.mem_append_left _ there

theorem IsReferenceName.ne_nil {name : List Char} (h : IsReferenceName name) : name ≠ [] := by
  obtain ⟨c, rest, rfl, _, _⟩ := h
  exact List.cons_ne_nil _ _

theorem IsReferenceName.ampersand_not_mem {name : List Char} (h : IsReferenceName name) :
    '&' ∉ name := by
  obtain ⟨c, rest, rfl, letter, all⟩ := h
  rw [List.mem_cons, not_or]
  constructor
  · rintro rfl
    cases letter
  · exact fun there => absurd (all '&' there) (by decide)

/-- The only front of a run is the one that is read as a name. -/
theorem readReferenceName_of_fronts {name rest : List Char} (whole : nameRun rest = rest)
    (fronts : Fronts name rest) : readReferenceName rest = some name := by
  cases rest with
  | nil =>
      obtain ⟨mark, others, split, _, _⟩ := fronts
      simp at split
  | cons c rest =>
      rw [nameRun] at whole
      split at whole
      · next letter =>
          obtain ⟨front, rfl, inner⟩ := (fronts_cons letter).mp fronts
          exact readReferenceName_front letter (List.cons.inj whole).2 inner
      · cases whole

/-- Behind a run that something else than a semicolon follows nothing is lost. -/
theorem not_loses_followed {rest after : List Char} {c : Char} (some : nameRun rest ≠ [])
    (split : rest = nameRun rest ++ c :: after) (other : c ≠ ';') : ¬Loses rest := by
  have length : (nameRun rest).length + after.length + 1 = rest.length := by
    have lengths := congrArg List.length split
    rw [List.length_append, List.length_cons] at lengths
    omega
  have positive : 0 < (nameRun rest).length := List.length_pos_iff.mpr some
  intro loses
  cases loses with
  | letter one =>
      match rest, one with
      | [d], _ =>
          rw [List.length_singleton] at length
          omega
  | semicolon _ closed =>
      have behind := congrArg (List.drop (nameRun rest).length) split
      rw [List.drop_left] at behind
      rw [behind] at closed
      exact other (Option.some.inj closed)
  | reference name whole _ _ =>
      rw [whole] at length
      omega

theorem behindName_semicolon (name after : List Char) :
    behindName name (name ++ ';' :: after) = after := by
  rw [behindName, List.drop_left, List.drop_append]
  simp [semicolonSize]

theorem behindName_other {name text : List Char} (other : text.head? ≠ some ';') :
    behindName name (name ++ text) = text := by
  rw [behindName, List.drop_left, semicolonSize]
  simp [other]

/-- Behind an ampersand that no name follows nothing is lost, except before a single letter. -/
theorem not_loses_none {rest : List Char} (none : readReferenceName rest = none)
    (more : isOneLetter rest = false) : ¬Loses rest := by
  have named := named_readReferenceName rest
  rw [none] at named
  intro loses
  cases loses with
  | letter one =>
      rw [more] at one
      cases one
  | semicolon some closed =>
      cases named with
      | noLetter nothing => exact some nothing
      | letters _ whole _ =>
          rw [whole, List.drop_length] at closed
          cases closed
  | reference name whole fronts _ =>
      rw [readReferenceName_of_fronts whole fronts] at none
      cases none

/-- In a run that reaches the end only the name that is read can be lost. -/
theorem loses_front {rest name : List Char} (whole : nameRun rest = rest)
    (fronts : Fronts name rest) : Loses rest ↔ (namedReferenceOf? name).isSome = true := by
  refine ⟨fun loses => ?_, fun known => .reference name whole fronts known⟩
  have read := readReferenceName_of_fronts whole fronts
  cases loses with
  | letter one =>
      match rest, one with
      | [c], letter =>
          rw [readReferenceName_plain letter rfl (by simp)] at read
          cases read
  | semicolon _ closed =>
      rw [whole, List.drop_length] at closed
      cases closed
  | reference other _ others known =>
      rw [readReferenceName_of_fronts whole others] at read
      cases read
      exact known

/-! ## A text is read as it stands, or shorter -/

theorem lossless_cons {c : Char} (h : c ≠ '&') {rest : List Char} :
    Lossless (c :: rest) ↔ Lossless rest := by
  simp [Lossless, behind_cons, h]

theorem lossless_ampersand {rest : List Char} :
    Lossless ('&' :: rest) ↔ ¬Loses rest ∧ Lossless rest := by
  simp [Lossless, behind_cons]

/-- How a text is read: as it stands when it is lossless, and else as a shorter one. -/
def ReadRight (text : List Char) : Prop :=
  (Lossless text ∧ reading text = text) ∨ (¬Lossless text ∧ (reading text).length < text.length)

/-- Where a semicolon ends a name that stands for nothing, it is lost. -/
theorem readRight_semicolon {name after : List Char}
    (run : nameRun (name ++ ';' :: after) = name) (isName : IsReferenceName name)
    (found : readReferenceName (name ++ ';' :: after) = some name)
    (unknown : namedReferenceOf? name = none) (ih : ReadRight after) :
    ReadRight ('&' :: (name ++ ';' :: after)) := by
  have closed : Loses (name ++ ';' :: after) := by
    refine .semicolon ?_ ?_
    · rw [run]
      exact isName.ne_nil
    · rw [run, List.drop_left]
      rfl
  have read : reading ('&' :: (name ++ ';' :: after)) = '&' :: name ++ reading after := by
    rw [reading, retold_named _ found, behindName_semicolon, namedText_none unknown]
    rfl
  have short : (reading after).length ≤ after.length := by
    rcases ih with ⟨_, same⟩ | ⟨_, less⟩
    · rw [same]
    · exact Nat.le_of_lt less
  refine Or.inr ⟨fun kept => (lossless_ampersand.mp kept).1 closed, ?_⟩
  rw [read]
  simp only [List.length_append, List.length_cons]
  omega

/-- Where anything else follows a name that stands for nothing, the name is kept. -/
theorem readRight_followed {name after : List Char} {c : Char} (other : c ≠ ';')
    (run : nameRun (name ++ c :: after) = name) (isName : IsReferenceName name)
    (found : readReferenceName (name ++ c :: after) = some name)
    (unknown : namedReferenceOf? name = none) (ih : ReadRight (c :: after)) :
    ReadRight ('&' :: (name ++ c :: after)) := by
  have kept : ¬Loses (name ++ c :: after) := by
    have some : nameRun (name ++ c :: after) ≠ [] := by
      rw [run]
      exact isName.ne_nil
    have split : name ++ c :: after = nameRun (name ++ c :: after) ++ c :: after := by rw [run]
    exact not_loses_followed some split other
  have read : reading ('&' :: (name ++ c :: after)) = '&' :: name ++ reading (c :: after) := by
    rw [reading, retold_named _ found, behindName_other (by simpa using other),
      namedText_none unknown]
    rfl
  have rest : Lossless (name ++ c :: after) ↔ Lossless (c :: after) :=
    behind_append isName.ampersand_not_mem
  rw [ReadRight, lossless_ampersand, rest, read]
  rcases ih with ⟨others, same⟩ | ⟨lost, less⟩
  · refine Or.inl ⟨⟨kept, others⟩, ?_⟩
    rw [same]
    rfl
  · refine Or.inr ⟨fun all => lost all.2, ?_⟩
    simp only [List.length_append, List.length_cons] at less ⊢
    omega

/-- Where a run reaches the end, its front is kept unless it stands for something. -/
theorem readRight_front {name rest : List Char} (whole : nameRun rest = rest)
    (fronts : Fronts name rest) : ReadRight ('&' :: rest) := by
  have found := readReferenceName_of_fronts whole fronts
  have alone : '&' ∉ rest := by
    rw [← whole]
    exact ampersand_not_mem_nameRun rest
  have others : Lossless rest := behind_of_not_mem alone
  have isName := (isReferenceName_of_read found).1
  have loses := loses_front whole fronts
  obtain ⟨mark, tail, rfl, isMark, _⟩ := fronts
  have read : reading ('&' :: (name ++ mark :: tail)) = namedText name ++ mark :: tail := by
    have last : '&' ∉ mark :: tail := fun there => alone (List.mem_append_right _ there)
    have notSemicolon : mark ≠ ';' := by rcases isMark with rfl | rfl <;> decide
    rw [reading, retold_named _ found, behindName_other (by simpa using notSemicolon),
      retold_of_not_mem _ last]
  rw [ReadRight, lossless_ampersand, loses, read]
  cases known : namedReferenceOf? name with
  | none =>
      rw [namedText_none known]
      exact Or.inl ⟨⟨by simp, others⟩, rfl⟩
  | some text =>
      have short := length_namedReferenceOf? isName.ne_nil known
      refine Or.inr ⟨by simp, ?_⟩
      rw [namedText, known, Option.getD_some]
      simp only [List.length_append, List.length_cons]
      omega

/-- A text that names nothing is lossless and read as it stands, or it is not and is read as a
shorter one. -/
theorem reading_cases {text : List Char} (h : Referenceless text) : ReadRight text := by
  induction text using text_induction with
  | nil => exact Or.inl ⟨behind_nil, retold_nil _⟩
  | plain c rest other ih =>
      have read : reading (c :: rest) = c :: reading rest := retold_cons _ other rest
      rw [ReadRight, lossless_cons other, read]
      rcases ih (behind_cons.mp h).2 with ⟨kept, same⟩ | ⟨lost, less⟩
      · exact Or.inl ⟨kept, by rw [same]⟩
      · exact Or.inr ⟨lost, by simpa using less⟩
  | letter c letter =>
      have read : reading ['&', c] = [c] := retold_letter _ letter
      have lost : Loses [c] := .letter letter
      rw [ReadRight, lossless_ampersand, read]
      exact Or.inr ⟨fun kept => kept.1 lost, by simp⟩
  | ampersand rest none more ih =>
      have read : reading ('&' :: rest) = '&' :: reading rest := retold_ampersand _ none more
      have kept : ¬Loses rest := not_loses_none none more
      rw [ReadRight, lossless_ampersand, read]
      rcases ih (behind_cons.mp h).2 with ⟨others, same⟩ | ⟨lost, less⟩
      · exact Or.inl ⟨⟨kept, others⟩, by rw [same]⟩
      · exact Or.inr ⟨fun all => lost all.2, by simpa using less⟩
  | named name rest found ih =>
      have named := named_readReferenceName rest
      obtain ⟨unknown, later⟩ := behind_cons.mp h
      replace unknown := unknown rfl
      obtain ⟨isName, -⟩ := isReferenceName_of_read found
      rw [found] at named
      cases named with
      | front whole fronts => exact readRight_front whole fronts
      | followed c after some split =>
          generalize run : nameRun rest = name at *
          subst split
          have tail : Referenceless (c :: after) :=
            (behind_append isName.ampersand_not_mem).mp later
          by_cases semicolon : c = ';'
          · subst semicolon
            rw [behindName_semicolon] at ih
            exact readRight_semicolon run isName found unknown (ih (behind_cons.mp tail).2)
          · rw [behindName_other (by simpa using semicolon)] at ih
            exact readRight_followed semicolon run isName found unknown (ih tail)

/-! ## Names written out as references -/

/-- A name written out as a reference. -/
def writtenOut (name : List Char) : List Char := '&' :: (name ++ [';'])

/-- A text with every name that is read in it written out as a reference. -/
def respelled (text : List Char) : List Char := retold writtenOut text

theorem respelled_named {name rest : List Char} (h : readReferenceName rest = some name) :
    respelled ('&' :: rest) = '&' :: (name ++ ';' :: respelled (behindName name rest)) := by
  rw [respelled, retold_named _ h, writtenOut, respelled, List.cons_append, List.append_assoc,
    List.singleton_append]

/-- A name that is written out is read again, whatever follows its semicolon. -/
theorem readReferenceName_closed {name : List Char} (h : IsReferenceName name) (rest : List Char) :
    readReferenceName (name ++ ';' :: rest) = some name := by
  obtain ⟨c, others, rfl, letter, all⟩ := h
  have taken : (others ++ ';' :: rest).takeWhile isReferenceNameCharacter = others := by
    rw [List.takeWhile_append_of_pos all, List.takeWhile_cons_of_neg (by decide), List.append_nil]
  have run : nameRun (c :: (others ++ ';' :: rest)) = c :: others := by
    rw [nameRun, if_pos letter, taken]
  have split : others ++ ';' :: rest =
      (others ++ ';' :: rest).takeWhile isReferenceNameCharacter ++ ';' :: rest := by rw [taken]
  rw [List.cons_append, readReferenceName_followed letter split, run]

theorem readReferenceName_other {rest : List Char}
    (other : ∀ c, rest.head? = some c → isAsciiLetter c = false) :
    readReferenceName rest = none ∧ isOneLetter rest = false := by
  cases rest with
  | nil => exact ⟨rfl, rfl⟩
  | cons c rest =>
      have notLetter : isAsciiLetter c = false := other c rfl
      refine ⟨?_, ?_⟩
      · rw [readReferenceName, notLetter]
        rfl
      · cases rest with
        | nil => exact notLetter
        | cons _ _ => rfl

/-! ### What a text that is written out consists of -/

/-- A text that is written out starts as the text does, or it is one letter. -/
theorem head?_respelled {text : List Char} {c : Char} (h : (respelled text).head? = some c) :
    text.head? = some c ∨ isAsciiLetter c = true ∧ text = ['&', c] := by
  induction text using text_induction with
  | nil =>
      rw [respelled, retold_nil] at h
      cases h
  | plain d rest other _ =>
      rw [respelled, retold_cons _ other] at h
      exact Or.inl h
  | named name rest found _ =>
      rw [respelled_named found] at h
      exact Or.inl h
  | letter d letter =>
      rw [respelled, retold_letter _ letter] at h
      cases h
      exact Or.inr ⟨letter, rfl⟩
  | ampersand rest none more _ =>
      rw [respelled, retold_ampersand _ none more] at h
      exact Or.inl h

theorem getLast?_cons_of {c d : Char} {text others : List Char}
    (same : ∀ e, text.getLast? = some e → others.getLast? = some e ∨ e = ';')
    (none : text = [] → others = []) (h : (d :: text).getLast? = some c) :
    (d :: others).getLast? = some c ∨ c = ';' := by
  rw [List.getLast?_cons, Option.some_inj] at h
  rw [List.getLast?_cons, Option.some_inj]
  cases last : text.getLast? with
  | none =>
      rw [last] at h
      rw [none (List.getLast?_eq_none_iff.mp last)]
      exact Or.inl h
  | some e =>
      rw [last] at h
      rcases same e last with own | semicolon
      · rw [own]
        exact Or.inl h
      · exact Or.inr (h ▸ semicolon)

theorem respelled_eq_nil {text : List Char} (h : respelled text = []) : text = [] := by
  induction text using text_induction with
  | nil => rfl
  | plain c rest other _ =>
      rw [respelled, retold_cons _ other] at h
      cases h
  | named name rest found _ =>
      rw [respelled_named found] at h
      cases h
  | letter c letter =>
      rw [respelled, retold_letter _ letter] at h
      cases h
  | ampersand rest none more _ =>
      rw [respelled, retold_ampersand _ none more] at h
      cases h

theorem getLast?_of_suffix {rest text : List Char} {c : Char} (suffix : rest <:+ text)
    (last : rest.getLast? = some c) : text.getLast? = some c := by
  obtain ⟨front, rfl⟩ := suffix
  rw [List.getLast?_append, last, Option.some_or]

/-- A text that is written out ends with what the text ends with, or with a semicolon. -/
theorem getLast?_respelled {text : List Char} {c : Char}
    (h : (respelled text).getLast? = some c) : text.getLast? = some c ∨ c = ';' := by
  induction text using text_induction generalizing c with
  | nil =>
      rw [respelled, retold_nil] at h
      cases h
  | plain d rest other ih =>
      rw [respelled, retold_cons _ other] at h
      exact getLast?_cons_of (fun e => ih) respelled_eq_nil h
  | named name rest found ih =>
      have apart : '&' :: (name ++ ';' :: respelled (behindName name rest)) =
          ('&' :: name ++ [';']) ++ respelled (behindName name rest) := by simp
      rw [respelled_named found, apart, List.getLast?_append, Option.or_eq_some_iff] at h
      rcases h with own | ⟨_, closed⟩
      · have suffix : behindName name rest <:+ '&' :: rest :=
          (behindName_suffix name rest).trans (List.suffix_cons _ _)
        exact (ih own).imp_left (getLast?_of_suffix suffix)
      · rw [List.getLast?_concat] at closed
        exact Or.inr (Option.some.inj closed).symm
  | letter d letter =>
      rw [respelled, retold_letter _ letter] at h
      exact Or.inl h
  | ampersand rest none more ih =>
      rw [respelled, retold_ampersand _ none more] at h
      exact getLast?_cons_of (fun e => ih) respelled_eq_nil h

theorem mem_respelled {text : List Char} {c : Char} (h : c ∈ respelled text) :
    c ∈ text ∨ c = ';' := by
  induction text using text_induction with
  | nil =>
      rw [respelled, retold_nil] at h
      cases h
  | plain d rest other ih =>
      rw [respelled, retold_cons _ other] at h
      rcases List.mem_cons.mp h with rfl | later
      · exact Or.inl List.mem_cons_self
      · exact (ih later).imp_left (List.mem_cons_of_mem _)
  | named name rest found ih =>
      obtain ⟨_, tail, rfl⟩ := isReferenceName_of_read found
      rw [respelled_named found] at h
      rcases List.mem_cons.mp h with rfl | h
      · exact Or.inl List.mem_cons_self
      rcases List.mem_append.mp h with own | h
      · exact Or.inl (List.mem_cons_of_mem _ (List.mem_append_left _ own))
      rcases List.mem_cons.mp h with rfl | later
      · exact Or.inr rfl
      · exact (ih later).imp_left fun there => List.mem_cons_of_mem _ (List.mem_of_mem_drop there)
  | letter d letter =>
      rw [respelled, retold_letter _ letter] at h
      exact Or.inl (List.mem_cons_of_mem _ h)
  | ampersand rest none more ih =>
      rw [respelled, retold_ampersand _ none more] at h
      rcases List.mem_cons.mp h with rfl | later
      · exact Or.inl List.mem_cons_self
      · exact (ih later).imp_left (List.mem_cons_of_mem _)

/-- No number sign comes to stand behind an ampersand. -/
theorem bracketless_respelled {text : List Char} (h : Bracketless text) :
    Bracketless (respelled text) := by
  refine ⟨fun there => ?_, ?_⟩
  · rcases mem_respelled there with own | semicolon
    · exact h.bracket own
    · cases semicolon
  · replace h := h.number
    induction text using text_induction with
    | nil =>
        rw [respelled, retold_nil]
        exact behind_nil
    | plain c rest other ih =>
        rw [respelled, retold_cons _ other, behind_cons]
        exact ⟨fun same => absurd same other, ih (behind_cons.mp h).2⟩
    | named name rest found ih =>
        have later := ih (behind_suffix (behind_cons.mp h).2 (behindName_suffix name rest))
        have isName := (isReferenceName_of_read found).1
        rw [respelled_named found, behind_cons, behind_append isName.ampersand_not_mem, behind_cons]
        refine ⟨fun _ number => ?_, fun same => absurd same (by decide), later⟩
        obtain ⟨c, others, rfl, letter, _⟩ := isName
        cases number
        cases letter
    | letter c letter =>
        rw [respelled, retold_letter _ letter]
        refine behind_of_not_mem fun there => ?_
        rw [← List.mem_singleton.mp there] at letter
        cases letter
    | ampersand rest none more ih =>
        obtain ⟨first, others⟩ := behind_cons.mp h
        rw [respelled, retold_ampersand _ none more, behind_cons]
        refine ⟨fun _ number => ?_, ih others⟩
        rcases head?_respelled number with own | ⟨letter, _⟩
        · exact first rfl own
        · cases letter

/-! ### What is read in it -/

/-- Writing names out makes nothing longer that is read, and loses nothing that is not lost
anyhow. -/
theorem reading_respelled (text : List Char) :
    (reading (respelled text)).length ≤ (reading text).length ∧
      (Lossless text → reading (respelled text) = reading text) := by
  induction text using text_induction with
  | nil => simp [respelled]
  | plain c rest other ih =>
      have own : reading (respelled (c :: rest)) = c :: reading (respelled rest) := by
        rw [respelled, retold_cons _ other]
        exact retold_cons _ other _
      have read : reading (c :: rest) = c :: reading rest := retold_cons _ other rest
      rw [own, read, lossless_cons other]
      exact ⟨Nat.succ_le_succ ih.1, fun kept => by rw [ih.2 kept]⟩
  | named name rest found ih =>
      have isName := (isReferenceName_of_read found).1
      have own : reading (respelled ('&' :: rest)) =
          namedText name ++ reading (respelled (behindName name rest)) := by
        rw [respelled_named found, reading, retold_named _ (readReferenceName_closed isName _),
          behindName_semicolon]
        rfl
      have read : reading ('&' :: rest) = namedText name ++ reading (behindName name rest) :=
        retold_named _ found
      rw [own, read]
      refine ⟨?_, fun kept => ?_⟩
      · rw [List.length_append, List.length_append]
        exact Nat.add_le_add_left ih.1 _
      · have later : Lossless (behindName name rest) :=
          behind_suffix (lossless_ampersand.mp kept).2 (behindName_suffix name rest)
        rw [ih.2 later]
  | letter c letter =>
      have alone : '&' ∉ [c] := by
        rintro (_ | ⟨_, ⟨⟩⟩)
        cases letter
      have own : reading (respelled ['&', c]) = [c] := by
        rw [respelled, retold_letter _ letter]
        exact retold_of_not_mem _ alone
      have read : reading ['&', c] = [c] := retold_letter _ letter
      rw [own, read]
      exact ⟨Nat.le_refl _, fun _ => rfl⟩
  | ampersand rest none more ih =>
      have own : respelled ('&' :: rest) = '&' :: respelled rest := retold_ampersand _ none more
      have read : reading ('&' :: rest) = '&' :: reading rest := retold_ampersand _ none more
      by_cases other : ∀ c, (respelled rest).head? = some c → isAsciiLetter c = false
      · -- no name comes to stand behind the ampersand
        have again : reading ('&' :: respelled rest) = '&' :: reading (respelled rest) := by
          obtain ⟨noName, noLetter⟩ := readReferenceName_other other
          exact retold_ampersand _ noName noLetter
        rw [own, again, read, lossless_ampersand]
        exact ⟨Nat.succ_le_succ ih.1, fun kept => by rw [ih.2 kept.2]⟩
      · obtain ⟨c, head, letter⟩ : ∃ c, (respelled rest).head? = some c ∧ isAsciiLetter c = true := by
          simpa using other
        rcases head?_respelled head with first | ⟨_, rfl⟩
        · -- a run that nothing follows is written out as it is
          have alone : '&' ∉ rest := by
            rw [← nameRun_of_none none first letter]
            exact ampersand_not_mem_nameRun rest
          have same : respelled rest = rest := retold_of_not_mem _ alone
          rw [own, same]
          exact ⟨Nat.le_refl _, fun _ => rfl⟩
        · -- one ampersand is left out after the other
          have inner : respelled ['&', c] = [c] := retold_letter _ letter
          have again : reading ['&', c] = [c] := retold_letter _ letter
          rw [own, read, inner, again]
          refine ⟨by simp, fun kept => ?_⟩
          have lost : Loses [c] := .letter letter
          exact absurd lost (lossless_ampersand.mp (lossless_ampersand.mp kept).2).1

end MessageCatalog.Markup
