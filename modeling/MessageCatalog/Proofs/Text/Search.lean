import Mathlib.Data.List.Forall2
import Mathlib.Data.List.Induction
import MessageCatalog.Text.Search

/-!
# MessageCatalog.Proofs.Text.Search -- where a part of a text is found

A text is broken before the first place where it stops: nowhere in front of it does it stop, and
what is in front of the place and what is behind it are the text. A part that is found once is
replaced there and nowhere else.

The pieces of a text that is divided at its separators hold no separator. Words are the pieces that
are not empty, and words put together with one separator between them are the words of what they
make.
-/

namespace MessageCatalog.Text

variable {stop : List Char → Bool} {part text before rest : List Char}

/-! ## Breaking -/

/-- A text is broken before the first place where it stops. -/
theorem breakWhere_append
    (goes : ∀ i < before.length, stop ((before ++ rest).drop i) = false)
    (stops : stop rest = true) : breakWhere stop (before ++ rest) = some (before, rest) := by
  induction before with
  | nil =>
      cases rest with
      | nil => rw [List.append_nil, breakWhere, if_pos stops]
      | cons c rest => rw [List.nil_append, breakWhere, if_pos stops]
  | cons c before ih =>
      have here : stop (c :: (before ++ rest)) = false := goes 0 (by simp)
      have later : ∀ i < before.length, stop ((before ++ rest).drop i) = false := fun i h =>
        goes (i + 1) (by simpa using h)
      rw [List.cons_append, breakWhere, here, ih later]
      rfl

/-- What a text is broken into, and that it does not stop before. -/
theorem breakWhere_eq_some (h : breakWhere stop text = some (before, rest)) :
    text = before ++ rest ∧ ∀ i < before.length, stop (text.drop i) = false := by
  induction text generalizing before rest with
  | nil =>
      rw [breakWhere] at h
      split at h
      · cases h
        exact ⟨rfl, by simp⟩
      · cases h
  | cons c cs ih =>
      rw [breakWhere] at h
      split at h
      · cases h
        exact ⟨rfl, by simp⟩
      · next goes =>
          obtain ⟨⟨inside, others⟩, found, same⟩ := Option.map_eq_some_iff.mp h
          cases same
          obtain ⟨rfl, later⟩ := ih found
          refine ⟨rfl, ?_⟩
          intro i less
          cases i with
          | zero => exact Bool.eq_false_iff.mpr goes
          | succ i => exact later i (Nat.lt_of_succ_lt_succ less)

/-- A text that is broken stops where it is broken. -/
theorem breakWhere_stops (h : breakWhere stop text = some (before, rest)) : stop rest = true := by
  induction text generalizing before rest with
  | nil =>
      rw [breakWhere] at h
      split at h
      · next stops =>
          cases h
          exact stops
      · cases h
  | cons c cs ih =>
      rw [breakWhere] at h
      split at h
      · next stops =>
          cases h
          exact stops
      · obtain ⟨⟨inside, others⟩, found, same⟩ := Option.map_eq_some_iff.mp h
        cases same
        exact ih found

/-- A text that is not broken stops nowhere in front of its characters. -/
theorem breakWhere_eq_none (h : breakWhere stop text = none) :
    ∀ i < text.length, stop (text.drop i) = false := by
  induction text with
  | nil => exact fun _ => nofun
  | cons c cs ih =>
      rw [breakWhere] at h
      split at h
      · cases h
      · next goes =>
          intro i less
          cases i with
          | zero => exact Bool.eq_false_iff.mpr goes
          | succ i => exact ih (Option.map_eq_none_iff.mp h) i (Nat.lt_of_succ_lt_succ less)

/-- Where a text does not stop, it is broken behind. -/
theorem breakWhere_skip
    (goes : ∀ i < before.length, stop ((before ++ rest).drop i) = false) :
    breakWhere stop (before ++ rest) =
      (breakWhere stop rest).map fun (inside, behind) => (before ++ inside, behind) := by
  induction before with
  | nil => cases broken : breakWhere stop rest <;> simp [broken]
  | cons c before ih =>
      have here : stop (c :: (before ++ rest)) = false := goes 0 (by simp)
      have later : ∀ i < before.length, stop ((before ++ rest).drop i) = false := fun i h =>
        goes (i + 1) (by simpa using h)
      rw [List.cons_append, breakWhere, here, ih later]
      cases breakWhere stop rest <;> rfl

/-! ## Parts in front -/

theorem after?_iff : after? part text = some rest ↔ text = part ++ rest := by
  fun_induction after? part text with
  | case1 text => simp [eq_comm]
  | case2 p ps => simp
  | case3 p ps c cs h ih => simp_all
  | case4 p ps c cs h =>
      simp only [reduceCtorEq, List.cons_append, List.cons.injEq, false_iff, not_and]
      rintro rfl
      simp at h

theorem startsWith_iff : startsWith part text = true ↔ part <+: text := by
  rw [startsWith, Option.isSome_iff_exists]
  exact exists_congr fun rest => after?_iff.trans eq_comm

/-- The letters of a name, in any case. -/
def SpellsAs (name spelled : List Char) : Prop :=
  List.Forall₂ (fun n c => sameLetter n c = true) name spelled

theorem afterName?_iff {name : List Char} :
    afterName? name text = some rest ↔ ∃ spelled, text = spelled ++ rest ∧ SpellsAs name spelled := by
  fun_induction afterName? name text with
  | case1 text =>
      constructor
      · rintro ⟨⟩
        exact ⟨[], rfl, .nil⟩
      · rintro ⟨_, rfl, ⟨⟩⟩
        rfl
  | case2 n ns =>
      refine ⟨nofun, ?_⟩
      rintro ⟨_, same, ⟨⟩⟩
      cases same
  | case3 n ns c cs letter ih =>
      rw [ih]
      constructor
      · rintro ⟨spelled, rfl, spells⟩
        exact ⟨c :: spelled, rfl, .cons letter spells⟩
      · rintro ⟨_, same, spells⟩
        cases spells with
        | cons _ spells =>
            cases same
            exact ⟨_, rfl, spells⟩
  | case4 n ns c cs other =>
      refine ⟨nofun, ?_⟩
      rintro ⟨_, same, spells⟩
      cases spells with
      | cons letter _ =>
          cases same
          exact absurd letter other

theorem spellsAs_self (name : List Char) : SpellsAs name name :=
  List.forall₂_same.mpr fun _ _ => beq_self_eq_true _

/-- What is no letter of a name is none of it as it is spelled. -/
theorem SpellsAs.notMem {name spelled : List Char} {c : Char} (h : SpellsAs name spelled)
    (other : ∀ n ∈ name, sameLetter n c = false) : c ∉ spelled := by
  induction h with
  | nil => exact List.not_mem_nil
  | cons letter _ ih =>
      rw [List.forall_mem_cons] at other
      rintro (_ | ⟨_, there⟩)
      · rw [other.1] at letter
        cases letter
      · exact ih other.2 there

theorem afterName?_suffix {name : List Char} (h : afterName? name text = some rest) :
    rest <:+ text := by
  obtain ⟨spelled, rfl, -⟩ := afterName?_iff.mp h
  exact List.suffix_append _ _

/-- A part stands in front of a character that it does not have. -/
theorem prefix_of_notMem {c : Char} (foreign : c ∉ part) (found : part <+: before ++ c :: rest) :
    part <+: before := by
  rcases List.prefix_or_prefix_of_prefix found (List.prefix_append before (c :: rest)) with h | h
  · exact h
  · obtain ⟨beyond, rfl⟩ := h
    rw [List.prefix_append_right_inj] at found
    cases beyond with
    | nil => simp
    | cons d beyond =>
        obtain ⟨rfl, -⟩ := List.cons_prefix_cons.mp found
        simp at foreign

/-! ## Replacing -/

variable {replacement : List Char}

theorem replacePart_skip (skipped : List Char) :
    replacePart part replacement skipped.length (skipped ++ rest) =
      replacePart part replacement 0 rest := by
  induction skipped with
  | nil => rfl
  | cons c skipped ih => rw [List.length_cons, List.cons_append, replacePart, ih]

/-- Where a part does not start, a text is kept. -/
theorem replacePart_append (goes : ∀ i < before.length, ¬part <+: (before ++ rest).drop i) :
    replacePart part replacement 0 (before ++ rest) =
      before ++ replacePart part replacement 0 rest := by
  induction before with
  | nil => rfl
  | cons c before ih =>
      have here : startsWith part (c :: (before ++ rest)) ≠ true := by
        rw [Ne, startsWith_iff]
        exact goes 0 (by simp)
      have later : ∀ i < before.length, ¬part <+: (before ++ rest).drop i := fun i h =>
        goes (i + 1) (by simpa using h)
      rw [List.cons_append, replacePart, if_neg here, ih later, List.cons_append]

/-- A part at the start of a text is replaced, and the scan goes on behind it. -/
theorem replacePart_part (some : part ≠ []) :
    replacePart part replacement 0 (part ++ rest) =
      replacement ++ replacePart part replacement 0 rest := by
  cases part with
  | nil => exact absurd rfl some
  | cons c cs =>
      have here : startsWith (c :: cs) (c :: (cs ++ rest)) = true :=
        startsWith_iff.mpr (List.prefix_append (c :: cs) rest)
      rw [List.cons_append, replacePart, if_pos here, List.length_cons, Nat.add_sub_cancel,
        replacePart_skip]

/-- A part nowhere in a text does not start anywhere in it, nor across a character behind it that
the part does not have. -/
theorem not_prefix_drop {c : Char} (foreign : c ∉ part) (absent : ¬part <:+: before) (i : Nat)
    (within : i ≤ before.length) : ¬part <+: (before ++ c :: rest).drop i := by
  rw [List.drop_append_of_le_length within]
  intro found
  exact absent ((prefix_of_notMem foreign found).isInfix.trans (List.drop_suffix i before).isInfix)

/-- A part that stands once, between two occurrences of a character which it does not have, is
replaced there. -/
theorem replaceAll_between {c : Char} {after : List Char} (some : part ≠ []) (foreign : c ∉ part)
    (starts : ∀ d ∈ before.getLast?, d = c) (absent : ¬part <:+: before)
    (absent' : ¬part <:+: after) :
    replaceAll part replacement (before ++ part ++ c :: after) =
      before ++ replacement ++ c :: after := by
  have front : ∀ i < before.length, ¬part <+: (before ++ (part ++ c :: after)).drop i := by
    intro i less
    -- an occurrence that starts earlier would end in front of the character before the part
    cases before using List.reverseRecOn with
    | nil => exact absurd less (Nat.not_lt_zero i)
    | append_singleton init d =>
        obtain rfl : d = c := starts d (by simp)
        have absent : ¬part <:+: init := fun h =>
          absent (h.trans (List.prefix_append init [d]).isInfix)
        rw [List.append_assoc]
        exact not_prefix_drop foreign absent i (by simpa [Nat.lt_succ_iff] using less)
  have behind : ∀ i < (c :: after).length, ¬part <+: (c :: after ++ []).drop i := by
    intro i less found
    rw [List.append_nil] at found
    cases i with
    | zero =>
        have nothing : part <+: [] := prefix_of_notMem foreign found
        exact some (List.prefix_nil.mp nothing)
    | succ i => exact absent' (found.isInfix.trans (List.drop_suffix i after).isInfix)
  have kept : replacePart part replacement 0 (c :: after ++ []) = c :: after ++ [] :=
    replacePart_append behind
  rw [List.append_nil] at kept
  rw [replaceAll, if_neg (by simpa using some), List.append_assoc, replacePart_append front,
    replacePart_part some, kept, List.append_assoc]

/-! ## Pieces between separators -/

variable {isSeparator : Char → Bool}

theorem splitOnChar_ne_nil (text : List Char) : splitOnChar isSeparator text ≠ [] := by
  cases text with
  | nil => exact List.cons_ne_nil _ _
  | cons c rest =>
      rw [splitOnChar]
      split
      · exact List.cons_ne_nil _ _
      · split <;> exact List.cons_ne_nil _ _

/-- A separator ends the pieces in front of it. -/
theorem splitOnChar_append {separator : Char} (ends : isSeparator separator = true)
    (before rest : List Char) :
    splitOnChar isSeparator (before ++ separator :: rest) =
      splitOnChar isSeparator before ++ splitOnChar isSeparator rest := by
  induction before with
  | nil =>
      show (if isSeparator separator then [] :: splitOnChar isSeparator rest else _) = _
      rw [if_pos ends]
      rfl
  | cons c before ih =>
      rw [List.cons_append, splitOnChar, splitOnChar, ih]
      split
      · rfl
      · cases pieces : splitOnChar isSeparator before with
        | nil => exact absurd pieces (splitOnChar_ne_nil before)
        | cons piece pieces => rfl

theorem splitOnChar_of_free {text : List Char} (free : ∀ c ∈ text, isSeparator c = false) :
    splitOnChar isSeparator text = [text] := by
  induction text with
  | nil => rfl
  | cons c rest ih =>
      rw [splitOnChar, free c List.mem_cons_self,
        ih fun other there => free other (List.mem_cons_of_mem _ there)]
      rfl

theorem not_separator_of_mem {text piece : List Char}
    (there : piece ∈ splitOnChar isSeparator text) : ∀ c ∈ piece, isSeparator c = false := by
  induction text generalizing piece with
  | nil =>
      rw [splitOnChar, List.mem_singleton] at there
      subst there
      exact nofun
  | cons c rest ih =>
      rw [splitOnChar] at there
      split at there
      · rcases List.mem_cons.mp there with rfl | there
        · exact nofun
        · exact ih there
      next inside =>
      cases pieces : splitOnChar isSeparator rest with
      | nil => exact absurd pieces (splitOnChar_ne_nil rest)
      | cons first others =>
          rw [pieces] at there ih
          rcases List.mem_cons.mp there with rfl | there
          · exact List.forall_mem_cons.mpr ⟨by simpa using inside, ih List.mem_cons_self⟩
          · exact ih (List.mem_cons_of_mem _ there)

/-! ## Words -/

theorem mem_words {text word : List Char} (there : word ∈ words isSeparator text) :
    word ≠ [] ∧ ∀ c ∈ word, isSeparator c = false := by
  obtain ⟨piece, some⟩ := List.mem_filter.mp there
  exact ⟨by simpa using some, not_separator_of_mem piece⟩

/-- Words put together with a separator between them are the words of the text that they make. -/
theorem words_joinWith {separator : Char} (ends : isSeparator separator = true)
    {pieces : List (List Char)}
    (proper : ∀ word ∈ pieces, word ≠ [] ∧ ∀ c ∈ word, isSeparator c = false) :
    words isSeparator (joinWith [separator] pieces) = pieces := by
  fun_induction joinWith [separator] pieces with
  | case1 => rfl
  | case2 piece =>
      obtain ⟨some, free⟩ := proper piece List.mem_cons_self
      rw [words, splitOnChar_of_free free]
      simp [some]
  | case3 piece next pieces ih =>
      rw [List.forall_mem_cons] at proper
      obtain ⟨⟨some, free⟩, others⟩ := proper
      have later := ih others
      rw [words] at later
      rw [words, List.append_assoc, List.singleton_append, splitOnChar_append ends,
        splitOnChar_of_free free, List.filter_append, later]
      simp [some]

end MessageCatalog.Text
