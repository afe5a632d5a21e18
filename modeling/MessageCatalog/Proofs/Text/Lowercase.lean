import MessageCatalog.Text.Character

/-!
# MessageCatalog.Proofs.Text.Lowercase -- small letters stay small

No small form is a capital letter of ASCII or the Kelvin sign, and those are the only characters
whose small form is in ASCII without being the character itself. So a text in small letters whose
small form is in ASCII is its own small form. The table of capital letters is looked at run by run,
for where the small letters of a run lie.

Putting a text in small letters once is enough: no small letter is a capital letter of any run of
the table, the table being compared with itself run by run. A letter that is changed comes out as an
ASCII letter or as a character above ASCII that is no blank, so a small form ends no name that the
text did not end.
-/

namespace MessageCatalog.Text

/-- An ASCII character. -/
def IsAscii (c : Char) : Prop := c.toNat < 0x80

/-- Neither a capital letter of ASCII nor the Kelvin sign. -/
def IsSmall (c : Char) : Prop := ¬('A' ≤ c ∧ c ≤ 'Z') ∧ c ≠ '\u212a'

instance (c : Char) : Decidable (IsAscii c) := inferInstanceAs (Decidable (_ < _))

instance (c : Char) : Decidable (IsSmall c) := inferInstanceAs (Decidable (_ ∧ _))

/-! ## The table -/

namespace CaseRun

/-- The small letters of a run lie above ASCII and do not meet the Kelvin sign, unless the run is
that sign alone. -/
def staysAbove (run : CaseRun) : Bool :=
  (run.first == 0x212a && run.last == 0x212a && run.shift == -8383) ||
    (decide (0x80 ≤ (run.first : Int) + run.shift) &&
      (decide ((run.last : Int) + run.shift < 0x212a) ||
        decide (0x212a < (run.first : Int) + run.shift)))

/-- The small letters of a run are characters. -/
def areCharacters (run : CaseRun) : Bool :=
  decide ((run.last : Int) + run.shift < 0xd800) ||
    (decide (0xe000 ≤ (run.first : Int) + run.shift) &&
      decide ((run.last : Int) + run.shift < 0x110000))

/-- The code point of the first small letter of a run. -/
def low (run : CaseRun) : Nat := Int.toNat (run.first + run.shift)

/-- The code point of the last small letter of a run. -/
def high (run : CaseRun) : Nat := Int.toNat (run.last + run.shift)

/-- No small letter of a run is a capital letter of another one. Where the two overlap, both take
every other code point, in turn. -/
def misses (run other : CaseRun) : Bool :=
  Nat.blt run.high other.first || (Nat.blt other.last run.low ||
    (other.step == 2 && (run.step == 2 || run.first == run.last) &&
      (run.low + other.first) % 2 == 1))

/-- No small letter of a run is one of some code points. -/
def avoids (codes : List Nat) (run : CaseRun) : Bool :=
  codes.all fun code => Nat.blt run.high code || Nat.blt code run.low

end CaseRun

/-- The two capital letters with a small form of their own, and the blanks above ASCII other than
the run of spaces from U+2000 to U+200A. -/
def setApart : List Nat :=
  [0x130, 0x3a3, 0x85, 0xa0, 0x1680, 0x2028, 0x2029, 0x202f, 0x205f, 0x3000]

-- The table is gone through once, for all that is to be known of its runs.
theorem caseRuns_checked : (caseRuns.toList.all fun run =>
    (run.staysAbove && run.areCharacters) && (run.avoids (setApart ++ List.range' 0x2000 11) &&
      caseRuns.toList.all run.misses)) = true := by
  decide +kernel

variable {run : CaseRun}

theorem caseRun_checked (there : run ∈ caseRuns) :
    (run.staysAbove = true ∧ run.areCharacters = true) ∧
      run.avoids (setApart ++ List.range' 0x2000 11) = true ∧
        caseRuns.toList.all run.misses = true := by
  have checked := List.all_eq_true.mp caseRuns_checked run (Array.mem_toList_iff.mpr there)
  simpa only [Bool.and_eq_true] using checked

theorem caseRuns_stayAbove (there : run ∈ caseRuns) :
    (run.first = 0x212a ∧ run.last = 0x212a) ∧ run.shift = -8383 ∨
      0x80 ≤ (run.first : Int) + run.shift ∧
        ((run.last : Int) + run.shift < 0x212a ∨ 0x212a < (run.first : Int) + run.shift) := by
  simpa only [CaseRun.staysAbove, Bool.or_eq_true, Bool.and_eq_true, beq_iff_eq,
    decide_eq_true_eq] using (caseRun_checked there).1.1

theorem caseRuns_areCharacters (there : run ∈ caseRuns) :
    (run.last : Int) + run.shift < 0xd800 ∨
      0xe000 ≤ (run.first : Int) + run.shift ∧ (run.last : Int) + run.shift < 0x110000 := by
  simpa only [CaseRun.areCharacters, Bool.or_eq_true, Bool.and_eq_true, decide_eq_true_eq] using
    (caseRun_checked there).1.2

theorem caseRuns_avoid (there : run ∈ caseRuns) :
    run.avoids (setApart ++ List.range' 0x2000 11) = true :=
  (caseRun_checked there).2.1

theorem caseRuns_miss (there : run ∈ caseRuns) {other : CaseRun} (other_there : other ∈ caseRuns) :
    run.misses other = true :=
  List.all_eq_true.mp (caseRun_checked there).2.2 other (Array.mem_toList_iff.mpr other_there)

/-! ## One character -/

/-- The small letter of a capital letter above ASCII stands where its run says. -/
theorem toNat_smallLetter {c : Char} (above : ¬IsAscii c) {run : CaseRun}
    (found : caseRunOf c.toNat = some run) :
    ((smallLetter c).toNat : Int) = c.toNat + run.shift := by
  have high : ¬c.toNat < 0x80 := above
  have table : smallLetter c = Char.ofNat (Int.toNat (c.toNat + run.shift)) := by
    rw [smallLetter, if_neg high, found]
  have there := Array.find?_some found
  simp only [Bool.and_eq_true, decide_eq_true_eq, beq_iff_eq] at there
  have stays := caseRuns_stayAbove (Array.mem_of_find?_eq_some found)
  have proper := caseRuns_areCharacters (Array.mem_of_find?_eq_some found)
  have valid : (Int.toNat (c.toNat + run.shift)).isValidChar := by
    unfold Nat.isValidChar
    rcases stays with ⟨⟨_, _⟩, _⟩ | ⟨_, _⟩ <;> omega
  have code : (smallLetter c).toNat = Int.toNat (c.toNat + run.shift) := by
    rw [table, Char.ofNat, dif_pos valid]
    exact UInt32.toNat_ofNatLT ..
  rw [code]
  rcases stays with ⟨⟨_, _⟩, _⟩ | ⟨_, _⟩ <;> omega

/-- The small form of a character above ASCII: it stays above, unless it is that of the Kelvin
sign. -/
theorem smallLetter_above {c : Char} (above : ¬IsAscii c) :
    (c = '\u212a' ∧ smallLetter c = 'k') ∨
      (¬IsAscii (smallLetter c) ∧ (smallLetter c = '\u212a' → c = '\u212a')) := by
  have high : ¬c.toNat < 0x80 := above
  cases found : caseRunOf c.toNat with
  | none =>
      have same : smallLetter c = c := by rw [smallLetter, if_neg high, found]
      rw [same]
      exact Or.inr ⟨above, id⟩
  | some run =>
      have code := toNat_smallLetter above found
      have there := Array.find?_some found
      simp only [Bool.and_eq_true, decide_eq_true_eq, beq_iff_eq] at there
      have stays := caseRuns_stayAbove (Array.mem_of_find?_eq_some found)
      -- the run of the Kelvin sign alone, or one that stays above ASCII
      rcases stays with ⟨⟨first, last⟩, shift⟩ | ⟨low, apart⟩
      · have kelvin : c = '\u212a' := by
          apply Char.toNat_inj.mp
          show c.toNat = 0x212a
          omega
        refine Or.inl ⟨kelvin, Char.toNat_inj.mp ?_⟩
        show (smallLetter c).toNat = 0x6b
        omega
      · refine Or.inr ⟨?_, fun same => ?_⟩
        · show ¬(smallLetter c).toNat < 0x80
          omega
        · rw [same] at code
          change (0x212a : Int) = _ at code
          omega

/-- There are few enough characters of ASCII to try each. -/
theorem smallLetter_ofNat : ∀ n < 0x80, (IsAscii (smallLetter (Char.ofNat n)) ∧
    IsSmall (smallLetter (Char.ofNat n)) ∧
      (IsSmall (Char.ofNat n) → smallLetter (Char.ofNat n) = Char.ofNat n)) ∧
        (smallLetter (Char.ofNat n) = Char.ofNat n ∨
          isAsciiLetter (smallLetter (Char.ofNat n)) = true) := by
  decide +kernel

theorem smallLetter_of_isAscii {c : Char} (h : IsAscii c) :
    IsAscii (smallLetter c) ∧ IsSmall (smallLetter c) ∧ (IsSmall c → smallLetter c = c) := by
  rw [← Char.ofNat_toNat c]
  exact (smallLetter_ofNat c.toNat h).1

theorem isSmall_smallLetter (c : Char) : IsSmall (smallLetter c) := by
  by_cases ascii : IsAscii c
  · exact (smallLetter_of_isAscii ascii).2.1
  · rcases smallLetter_above ascii with ⟨_, same⟩ | ⟨above, kelvin⟩
    · rw [same]
      decide
    · refine ⟨fun capital => above ?_, ?_⟩
      · have le : (smallLetter c).toNat ≤ 'Z'.toNat := capital.2
        exact Nat.lt_of_le_of_lt le (by decide)
      · intro same
        rw [kelvin same] at same
        revert same
        decide +kernel

/-- A small character whose small form is in ASCII is that form. -/
theorem smallForm_of_isAscii {c : Char} (small : IsSmall c) {before behind : List Char}
    (ascii : ∀ d ∈ smallForm before c behind, IsAscii d) : smallForm before c behind = [c] := by
  unfold smallForm at ascii ⊢
  split
  · next dotted =>
    rw [if_pos dotted] at ascii
    exact absurd (ascii '\u0307' (by simp)) (by decide)
  · next other =>
    rw [if_neg other] at ascii
    split
    · next sigma =>
      rw [if_pos sigma] at ascii
      split at ascii
      · exact absurd (ascii '\u03c2' (by simp)) (by decide)
      · exact absurd (ascii '\u03c3' (by simp)) (by decide)
    · next plain =>
      rw [if_neg plain] at ascii
      have form : IsAscii (smallLetter c) := ascii _ (by simp)
      by_cases low : IsAscii c
      · rw [(smallLetter_of_isAscii low).2.2 small]
      · rcases smallLetter_above low with ⟨kelvin, _⟩ | ⟨above, _⟩
        · exact absurd kelvin small.2
        · exact absurd form above

/-! ## Texts -/

theorem isSmall_smallForm (before : List Char) (c : Char) (behind : List Char) :
    ∀ d ∈ smallForm before c behind, IsSmall d := by
  unfold smallForm
  split
  · exact List.forall_mem_cons.mpr ⟨by decide, List.forall_mem_singleton.mpr (by decide)⟩
  split
  · split <;> exact List.forall_mem_singleton.mpr (by decide)
  · exact List.forall_mem_singleton.mpr (isSmall_smallLetter c)

theorem isSmall_lowercaseBehind (before text : List Char) :
    ∀ d ∈ lowercaseBehind before text, IsSmall d := by
  induction text generalizing before with
  | nil => simp [lowercaseBehind]
  | cons c rest ih =>
      intro d there
      rcases List.mem_append.mp there with there | there
      · exact isSmall_smallForm before c rest d there
      · exact ih _ d there

theorem lowercaseBehind_of_isAscii {text : List Char} (small : ∀ c ∈ text, IsSmall c)
    (before : List Char) (ascii : ∀ d ∈ lowercaseBehind before text, IsAscii d) :
    lowercaseBehind before text = text := by
  induction text generalizing before with
  | nil => rfl
  | cons c rest ih =>
      rw [lowercaseBehind] at ascii ⊢
      have first : smallForm before c rest = [c] :=
        smallForm_of_isAscii (small c List.mem_cons_self)
          fun d there => ascii d (List.mem_append_left _ there)
      have others : lowercaseBehind (c :: before) rest = rest :=
        ih (fun d there => small d (List.mem_cons_of_mem _ there)) _
          fun d there => ascii d (List.mem_append_right _ there)
      rw [first, others]
      rfl

/-- A text in small letters whose small form is in ASCII is its own small form. -/
theorem lowercase_lowercase {text : List Char}
    (ascii : ∀ d ∈ lowercase (lowercase text), IsAscii d) :
    lowercase (lowercase text) = lowercase text :=
  lowercaseBehind_of_isAscii (isSmall_lowercaseBehind [] text) [] ascii

/-- A text of small ASCII letters and other small ASCII characters is its own small form. -/
theorem lowercase_of_isAscii {text : List Char} (h : ∀ c ∈ text, IsAscii c ∧ IsSmall c) :
    lowercase text = text := by
  have one : ∀ (before : List Char) (c : Char) (behind : List Char), IsAscii c → IsSmall c →
      smallForm before c behind = [c] := by
    intro before c behind ascii small
    refine smallForm_of_isAscii small ?_
    have dotted : c ≠ '\u0130' := by
      rintro rfl
      exact absurd ascii (by decide)
    have sigma : c ≠ '\u03a3' := by
      rintro rfl
      exact absurd ascii (by decide)
    rw [smallForm, if_neg (by simpa using dotted), if_neg (by simpa using sigma)]
    intro d there
    rw [List.mem_singleton.mp there]
    exact (smallLetter_of_isAscii ascii).1
  have behind : ∀ before, lowercaseBehind before text = text := by
    induction text with
    | nil => exact fun _ => rfl
    | cons c rest ih =>
        intro before
        have first := h c List.mem_cons_self
        rw [lowercaseBehind, one before c rest first.1 first.2,
          ih fun d there => h d (List.mem_cons_of_mem _ there)]
        rfl
  exact behind []

/-! ## One small letter -/

variable {c : Char}

/-- A small letter is no capital letter of the table. -/
theorem caseRunOf_smallLetter (above : ¬IsAscii c) {run : CaseRun}
    (found : caseRunOf c.toNat = some run) : caseRunOf (smallLetter c).toNat = none := by
  cases again : caseRunOf (smallLetter c).toNat with
  | none => rfl
  | some other =>
      exfalso
      have code := toNat_smallLetter above found
      have own := Array.find?_some found
      have own' := Array.find?_some again
      have inside := Array.mem_of_find?_eq_some found
      have apart := caseRuns_miss inside (Array.mem_of_find?_eq_some again)
      simp only [CaseRun.misses, CaseRun.low, CaseRun.high, Bool.or_eq_true, Bool.and_eq_true,
        Nat.blt_eq, beq_iff_eq, decide_eq_true_eq] at own own' apart
      have stays := caseRuns_stayAbove inside
      have start : 0 ≤ (run.first : Int) + run.shift := by omega
      -- on the other side of the run, or between two of its letters
      rcases apart with below | beyond | ⟨⟨two, every⟩, odd⟩
      · omega
      · omega
      · rw [two] at own'
        rcases every with step | single
        · rw [step] at own
          omega
        · omega

theorem smallLetter_smallLetter (c : Char) : smallLetter (smallLetter c) = smallLetter c := by
  by_cases ascii : IsAscii c
  · have held := smallLetter_of_isAscii ascii
    exact (smallLetter_of_isAscii held.1).2.2 held.2.1
  · cases found : caseRunOf c.toNat with
    | none =>
        have same : smallLetter c = c := by
          rw [smallLetter, if_neg (show ¬c.toNat < 0x80 from ascii), found]
        rw [same, same]
    | some run =>
        rcases smallLetter_above ascii with ⟨_, same⟩ | ⟨above, _⟩
        · rw [same]
          rfl
        · rw [smallLetter, if_neg (show ¬(smallLetter c).toNat < 0x80 from above),
            caseRunOf_smallLetter ascii found]

/-- A letter that its small form replaces: what comes out is an ASCII letter, or stands above ASCII
and is none of the characters that are set apart. -/
theorem smallLetter_cases (c : Char) :
    smallLetter c = c ∨ isAsciiLetter (smallLetter c) = true ∨
      ¬IsAscii (smallLetter c) ∧ isBlank (smallLetter c) = false ∧ smallLetter c ≠ '\u0130' ∧
        smallLetter c ≠ '\u03a3' := by
  by_cases ascii : IsAscii c
  · have here := (smallLetter_ofNat c.toNat ascii).2
    rw [Char.ofNat_toNat] at here
    exact here.imp_right Or.inl
  · cases found : caseRunOf c.toNat with
    | none => exact Or.inl (by rw [smallLetter, if_neg (show ¬c.toNat < 0x80 from ascii), found])
    | some run =>
        refine Or.inr ?_
        rcases smallLetter_above ascii with ⟨_, same⟩ | ⟨above, _⟩
        · rw [same]
          exact Or.inl (by decide)
        refine Or.inr ⟨above, ?_⟩
        have code := toNat_smallLetter ascii found
        have own := Array.find?_some found
        -- no run of the table reaches a blank or one of the letters with a form of their own
        have apart := caseRuns_avoid (Array.mem_of_find?_eq_some found)
        have high : ¬(smallLetter c).toNat < 0x80 := above
        rw [CaseRun.avoids, List.all_eq_true] at apart
        have other : ∀ n ∈ setApart ++ List.range' 0x2000 11, (smallLetter c).toNat ≠ n := by
          intro n there
          have side := apart n there
          simp only [CaseRun.low, CaseRun.high, Bool.or_eq_true, Bool.and_eq_true, Nat.blt_eq,
            decide_eq_true_eq] at side own
          omega
        generalize smallLetter c = d at high other
        refine ⟨?_, fun same => other 0x130 (by decide) (same ▸ rfl),
          fun same => other 0x3a3 (by decide) (same ▸ rfl)⟩
        have wide : ¬(0x2000 ≤ d.toNat ∧ d.toNat ≤ 0x200a) := by
          rintro ⟨low, high⟩
          exact other d.toNat (List.mem_append_right _
            (List.mem_range'_1.mpr ⟨low, Nat.lt_succ_of_le high⟩)) rfl
        simp only [setApart, List.cons_append, List.forall_mem_cons] at other
        simp only [isBlank, Bool.or_eq_false_iff, Bool.and_eq_false_iff, decide_eq_false_iff_not,
          beq_eq_false_iff_ne]
        omega

/-! ## Small forms of texts -/

/-- A character that stands in a text in small letters. -/
structure Settled (d : Char) : Prop where
  letter : smallLetter d = d
  dotted : d ≠ '\u0130'
  sigma : d ≠ '\u03a3'

theorem Settled.smallForm {d : Char} (h : Settled d) (before behind : List Char) :
    Text.smallForm before d behind = [d] := by
  rw [Text.smallForm, if_neg (by simpa using h.dotted), if_neg (by simpa using h.sigma), h.letter]

/-- A small form is settled, and each of its characters is the character itself, an ASCII letter, or
a character above ASCII that is no blank. -/
theorem smallForm_spec (before : List Char) (c : Char) (behind : List Char) :
    ∀ d ∈ smallForm before c behind,
      Settled d ∧ (d = c ∨ isAsciiLetter d = true ∨ ¬IsAscii d ∧ isBlank d = false) := by
  have fixed : ∀ d ∈ ['i', '\u0307', '\u03c2', '\u03c3'],
      Settled d ∧ (isAsciiLetter d = true ∨ ¬IsAscii d ∧ isBlank d = false) := by
    have letters : (['i', '\u0307', '\u03c2', '\u03c3'].all fun d =>
        smallLetter d = d ∧ d ≠ '\u0130' ∧ d ≠ '\u03a3' ∧
          (isAsciiLetter d = true ∨ ¬IsAscii d ∧ isBlank d = false)) = true := by
      decide +kernel
    intro d there
    obtain ⟨letter, dotted, sigma, kind⟩ := of_decide_eq_true (List.all_eq_true.mp letters d there)
    exact ⟨⟨letter, dotted, sigma⟩, kind⟩
  intro d there
  unfold smallForm at there
  split at there
  · obtain ⟨settled, kind⟩ := fixed d (by
      rcases List.mem_cons.mp there with rfl | there
      · exact List.mem_cons_self
      · exact List.mem_cons_of_mem _ (List.mem_singleton.mp there ▸ List.mem_cons_self))
    exact ⟨settled, Or.inr kind⟩
  · next dotted =>
      split at there
      · obtain ⟨settled, kind⟩ := fixed d (by
          split at there <;> rw [List.mem_singleton.mp there] <;> simp)
        exact ⟨settled, Or.inr kind⟩
      · next sigma =>
          rw [List.mem_singleton.mp there]
          have twice := smallLetter_smallLetter c
          rcases smallLetter_cases c with same | letter | ⟨above, blank, noDot, noSigma⟩
          · refine ⟨⟨twice, ?_, ?_⟩, Or.inl same⟩
            · rw [same]
              simpa using dotted
            · rw [same]
              simpa using sigma
          · refine ⟨⟨twice, ?_, ?_⟩, Or.inr (Or.inl letter)⟩ <;>
            · intro same
              rw [same] at letter
              exact absurd letter (by decide)
          · exact ⟨⟨twice, noDot, noSigma⟩, Or.inr (Or.inr ⟨above, blank⟩)⟩

/-- Every character of a text in small letters is settled, and it is one of the text, an ASCII
letter, or a character above ASCII that is no blank. -/
theorem lowercaseBehind_spec (before text : List Char) :
    ∀ d ∈ lowercaseBehind before text,
      Settled d ∧ (d ∈ text ∨ isAsciiLetter d = true ∨ ¬IsAscii d ∧ isBlank d = false) := by
  induction text generalizing before with
  | nil => exact fun _ => nofun
  | cons c rest ih =>
      intro d there
      rcases List.mem_append.mp there with first | later
      · obtain ⟨settled, kind⟩ := smallForm_spec before c rest d first
        exact ⟨settled, kind.imp_left fun same => by rw [same]; exact List.mem_cons_self⟩
      · obtain ⟨settled, kind⟩ := ih (c :: before) d later
        exact ⟨settled, kind.imp_left fun inside => List.mem_cons_of_mem _ inside⟩

theorem lowercaseBehind_of_settled {text : List Char} (h : ∀ d ∈ text, Settled d)
    (before : List Char) : lowercaseBehind before text = text := by
  induction text generalizing before with
  | nil => rfl
  | cons c rest ih =>
      rw [List.forall_mem_cons] at h
      rw [lowercaseBehind, h.1.smallForm, ih h.2]
      rfl

/-- A text in small letters is its own small form. -/
theorem lowercase_idempotent (text : List Char) : lowercase (lowercase text) = lowercase text :=
  lowercaseBehind_of_settled (fun d there => (lowercaseBehind_spec [] text d there).1) []

/-- The small form of a text starts with the small form of its first character, and goes on with
characters of the text behind it, ASCII letters, and characters above ASCII that are no blanks. -/
theorem lowercase_cons (c : Char) (rest : List Char) :
    ∃ first others, lowercase (c :: rest) = first :: others ∧
      (first = c ∨ isAsciiLetter first = true ∨ ¬IsAscii first ∧ isBlank first = false) ∧
      ∀ d ∈ others, d ∈ rest ∨ isAsciiLetter d = true ∨ ¬IsAscii d ∧ isBlank d = false := by
  have own := smallForm_spec [] c rest
  have later := lowercaseBehind_spec [c] rest
  have split : lowercase (c :: rest) = smallForm [] c rest ++ lowercaseBehind [c] rest := rfl
  have alone : smallForm [] c rest = ['i', '\u0307'] ∨ ∃ d, smallForm [] c rest = [d] := by
    unfold smallForm
    split
    · exact Or.inl rfl
    · split <;> exact Or.inr ⟨_, rfl⟩
  rw [split]
  rcases alone with dotted | ⟨d, same⟩
  · rw [dotted]
    refine ⟨'i', '\u0307' :: lowercaseBehind [c] rest, rfl, Or.inr (Or.inl (by decide)), ?_⟩
    exact List.forall_mem_cons.mpr
      ⟨Or.inr (Or.inr (by decide +kernel)), fun d there => (later d there).2⟩
  · rw [same] at own ⊢
    exact ⟨d, _, rfl, (own d List.mem_cons_self).2, fun d there => (later d there).2⟩

end MessageCatalog.Text
