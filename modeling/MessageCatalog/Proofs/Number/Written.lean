import Mathlib.Algebra.Group.Nat.Defs
import Mathlib.Data.List.TakeWhile
import MessageCatalog.Number.Shortest
import MessageCatalog.Text.Character

/-!
# MessageCatalog.Proofs.Number.Written -- the digits that numbers are written with

A natural is written with digits that are worth it, and without a zero in front. A number with a
fraction or an exponent is written as a whole part and a tail that says which of the two it has, so
that the text of a number tells its kind.
-/

namespace MessageCatalog.Number

open MessageCatalog.Text

/-! ## Naturals -/

/-- A text of one or more digits. -/
def IsDigits (text : List Char) : Prop := text ≠ [] ∧ ∀ c ∈ text, isAsciiDigit c = true

/-- The digits of a natural: no zero stands in front of others. -/
def IsWhole (text : List Char) : Prop := IsDigits text ∧ (text = ['0'] ∨ text.head? ≠ some '0')

theorem isDigits_toDigits (n : Nat) : IsDigits (Nat.toDigits 10 n) := by
  refine ⟨Nat.toDigits_ne_nil, fun c there => ?_⟩
  have digit : c.isDigit = true := Nat.isDigit_of_mem_toDigits (by omega) (Nat.le_refl 10) there
  exact digit

/-- A whole number is written with its digits, behind a minus sign if it is below zero. -/
theorem toList_toString_int (n : Int) :
    (toString n).toList =
      if n < 0 then '-' :: Nat.toDigits 10 n.natAbs else Nat.toDigits 10 n.natAbs := by
  cases n with
  | ofNat n => simp [toString, Int.repr, Nat.repr]
  | negSucc n => simp [toString, Int.repr, Nat.repr]

theorem hexValue_digitChar : ∀ d < 10, hexValue d.digitChar = d := by decide

/-- The digits of a natural are worth it. -/
theorem numeral_toDigits (n : Nat) : numeral 10 (Nat.toDigits 10 n) = n := by
  induction n using Nat.strongRecOn with
  | ind n ih =>
      by_cases small : n < 10
      · rw [Nat.toDigits_of_lt_base small]
        show 0 * 10 + hexValue n.digitChar = n
        rw [hexValue_digitChar n small]
        omega
      · have above : 10 ≤ n := Nat.le_of_not_lt small
        rw [Nat.toDigits_of_base_le (by omega) above, numeral, List.foldl_append]
        show numeral 10 (Nat.toDigits 10 (n / 10)) * 10 + hexValue (n % 10).digitChar = n
        rw [ih (n / 10) (by omega), hexValue_digitChar (n % 10) (by omega)]
        omega

theorem digitChar_ne_zero : ∀ d < 10, 0 < d → d.digitChar ≠ '0' := by decide

/-- The digits of a positive number start with no zero. -/
theorem head?_toDigits {n : Nat} (positive : 0 < n) : (Nat.toDigits 10 n).head? ≠ some '0' := by
  induction n using Nat.strongRecOn with
  | ind n ih =>
      by_cases small : n < 10
      · rw [Nat.toDigits_of_lt_base small]
        intro same
        exact digitChar_ne_zero n small positive (Option.some.inj same)
      · have above : 10 ≤ n := Nat.le_of_not_lt small
        have first := ih (n / 10) (by omega) (by omega)
        rw [Nat.toDigits_of_base_le (by omega) above]
        cases digits : Nat.toDigits 10 (n / 10) with
        | nil => exact absurd digits Nat.toDigits_ne_nil
        | cons c rest =>
            rw [digits] at first
            exact first

theorem isWhole_toDigits (n : Nat) : IsWhole (Nat.toDigits 10 n) := by
  refine ⟨isDigits_toDigits n, ?_⟩
  cases n with
  | zero => exact Or.inl rfl
  | succ n => exact Or.inr (head?_toDigits (Nat.succ_pos n))

/-! ## Hexadecimal -/

theorem isHexDigit_hexDigit : ∀ d < 16, isHexDigit (hexDigit d) = true := by decide

theorem hexValue_hexDigit : ∀ d < 16, hexValue (hexDigit d) = d := by decide

theorem length_hexNumeral (width n : Nat) : (hexNumeral width n).length = width := by
  induction width generalizing n with
  | zero => rfl
  | succ width ih => rw [hexNumeral, List.length_append, ih, List.length_singleton]

theorem isHexDigit_of_mem_hexNumeral {width n : Nat} {c : Char} (there : c ∈ hexNumeral width n) :
    isHexDigit c = true := by
  induction width generalizing n with
  | zero => cases there
  | succ width ih =>
      rw [hexNumeral, List.mem_append, List.mem_singleton] at there
      rcases there with before | rfl
      · exact ih before
      · exact isHexDigit_hexDigit _ (Nat.mod_lt n (by omega))

/-- The hexadecimal digits of a number that fits are worth it. -/
theorem numeral_hexNumeral {width n : Nat} (fits : n < Nat.pow 16 width) :
    numeral 16 (hexNumeral width n) = n := by
  induction width generalizing n with
  | zero =>
      have zero : n < 1 := fits
      show 0 = n
      omega
  | succ width ih =>
      have longer : n < Nat.pow 16 width * 16 := fits
      have shorter : n / 16 < Nat.pow 16 width := by omega
      rw [hexNumeral, numeral, List.foldl_append]
      show numeral 16 (hexNumeral width (n / 16)) * 16 + hexValue (hexDigit (n % 16)) = n
      rw [ih shorter, hexValue_hexDigit _ (Nat.mod_lt n (by omega))]
      omega

/-! ## Digits that matter -/

theorem significantDigits_isPrefix (n : Nat) : significantDigits n <+: Nat.toDigits 10 n := by
  have tail : (Nat.toDigits 10 n).reverse.dropWhile (· == '0') <:+ (Nat.toDigits 10 n).reverse :=
    List.dropWhile_suffix _
  simpa [significantDigits] using List.reverse_prefix.mpr tail

/-- A positive number has a digit that matters: its first one. -/
theorem significantDigits_ne_nil {n : Nat} (positive : 0 < n) : significantDigits n ≠ [] := by
  intro none
  rw [significantDigits, List.reverse_eq_nil_iff, List.dropWhile_eq_nil_iff] at none
  cases digits : Nat.toDigits 10 n with
  | nil => exact Nat.toDigits_ne_nil digits
  | cons first rest =>
      have zero : first = '0' := by simpa using none first (by simp [digits])
      apply head?_toDigits positive
      rw [digits, zero]
      rfl

theorem significantDigits_cons {n : Nat} (positive : 0 < n) :
    ∃ first others, significantDigits n = first :: others ∧ first ≠ '0' ∧
      ∀ c ∈ first :: others, isAsciiDigit c = true := by
  obtain ⟨behind, whole⟩ := significantDigits_isPrefix n
  cases digits : significantDigits n with
  | nil => exact absurd digits (significantDigits_ne_nil positive)
  | cons first others =>
      rw [digits] at whole
      refine ⟨first, others, rfl, ?_, fun c there => ?_⟩
      · rintro rfl
        apply head?_toDigits positive
        rw [← whole]
        rfl
      · apply (isDigits_toDigits n).2
        rw [← whole]
        exact List.mem_append_left _ there

/-- Zeros in front of a numeral say nothing. -/
theorem numeral_zeros_append (count : Nat) (digits : List Char) :
    numeral 10 (List.replicate count '0' ++ digits) = numeral 10 digits := by
  have zeros : numeral 10 (List.replicate count '0') = 0 := by
    induction count with
    | zero => rfl
    | succ count ih =>
        rw [List.replicate_succ', numeral, List.foldl_append]
        show numeral 10 (List.replicate count '0') * 10 + 0 = 0
        rw [ih]
  rw [numeral, List.foldl_append]
  show digits.foldl _ (numeral 10 (List.replicate count '0')) = _
  rw [zeros, numeral]

/-- A zero behind a numeral makes it ten times as large. -/
theorem numeral_append_zeros (digits : List Char) (count : Nat) :
    numeral 10 (digits ++ List.replicate count '0') = numeral 10 digits * 10 ^ count := by
  induction count with
  | zero => simp
  | succ count ih =>
      rw [List.replicate_succ', ← List.append_assoc, numeral, List.foldl_append]
      show numeral 10 (digits ++ List.replicate count '0') * 10 + 0 = _
      rw [ih, Nat.pow_succ, Nat.mul_assoc, Nat.add_zero]

/-- Only zeros stand behind the digits that matter. -/
theorem exists_toDigits (n : Nat) :
    ∃ zeros, Nat.toDigits 10 n = significantDigits n ++ List.replicate zeros '0' := by
  have zeros : (Nat.toDigits 10 n).reverse.takeWhile (· == '0') =
      List.replicate ((Nat.toDigits 10 n).reverse.takeWhile (· == '0')).length '0' :=
    List.eq_replicate_of_mem fun c there => by simpa using List.mem_takeWhile_imp there
  have parts : (Nat.toDigits 10 n).reverse.takeWhile (· == '0') ++
      (Nat.toDigits 10 n).reverse.dropWhile (· == '0') = (Nat.toDigits 10 n).reverse :=
    List.takeWhile_append_dropWhile
  refine ⟨((Nat.toDigits 10 n).reverse.takeWhile (· == '0')).length, ?_⟩
  rw [significantDigits, ← List.reverse_replicate, ← zeros, ← List.reverse_append, parts,
    List.reverse_reverse]

/-! ## Decimals -/

/-- The size of an exponent with its sign. -/
def signedSize (sign : Char) (size : List Char) : Int :=
  if sign = '-' then -(numeral 10 size : Int) else numeral 10 size

/-- What makes a numeral that of a number with a fraction or an exponent: the digits behind its
point, and the exponent. -/
inductive RealTail : List Char → Int → List Char → Prop where
  | fraction {digits : List Char} (some : IsDigits digits) : RealTail digits 0 ('.' :: digits)
  | exponent {sign : Char} {size : List Char} (signed : sign = '-' ∨ sign = '+')
      (some : IsDigits size) : RealTail [] (signedSize sign size) ('e' :: sign :: size)
  | both {digits : List Char} {sign : Char} {size : List Char} (some : IsDigits digits)
      (signed : sign = '-' ∨ sign = '+') (others : IsDigits size) :
      RealTail digits (signedSize sign size) ('.' :: digits ++ 'e' :: sign :: size)

/-- A numeral with a whole part and a tail spells so many times a power of ten. -/
def Spells (text : List Char) (digits : Nat) (power : Int) : Prop :=
  ∃ whole fraction exponent tail, text = whole ++ tail ∧ IsWhole whole ∧
    RealTail fraction exponent tail ∧ digits = numeral 10 (whole ++ fraction) ∧
    power = exponent - fraction.length

theorem spells_zero : Spells ['0', '.', '0'] 0 (-1) :=
  ⟨['0'], ['0'], 0, ['.', '0'], rfl, isWhole_toDigits 0, .fraction (isDigits_toDigits 0), rfl, rfl⟩

/-- A numeral of a number with a fraction or an exponent. -/
def IsReal (text : List Char) : Prop := ∃ digits power, Spells text digits power

theorem isDigits_zeros_append {digits : List Char} (h : IsDigits digits) (count : Nat) :
    IsDigits (List.replicate count '0' ++ digits) := by
  refine ⟨?_, ?_⟩
  · intro none
    exact h.1 (List.append_eq_nil_iff.mp none).2
  · intro c there
    rcases List.mem_append.mp there with zero | other
    · rw [List.eq_of_mem_replicate zero]
      rfl
    · exact h.2 c other

/-- Digits that do not start with a zero are those of a whole number. -/
theorem isWhole_cons {first : Char} {others : List Char} (notZero : first ≠ '0')
    (all : ∀ c ∈ first :: others, isAsciiDigit c = true) : IsWhole (first :: others) :=
  ⟨⟨List.cons_ne_nil _ _, all⟩, Or.inr fun same => notZero (Option.some.inj same)⟩

section

variable {first : Char} {others : List Char} (all : ∀ c ∈ first :: others, isAsciiDigit c = true)

include all

/-- Zeros between the point and the digits. -/
theorem spells_below (zeros : Nat) :
    Spells ('0' :: '.' :: List.replicate zeros '0' ++ first :: others)
      (numeral 10 (first :: others)) (-(zeros : Int) - (first :: others).length) := by
  refine ⟨['0'], List.replicate zeros '0' ++ first :: others, 0, _, rfl, isWhole_toDigits 0,
    .fraction (isDigits_zeros_append ⟨List.cons_ne_nil _ _, all⟩ zeros), ?_, ?_⟩
  · show _ = numeral 10 (List.replicate 1 '0' ++ _)
    rw [numeral_zeros_append, numeral_zeros_append]
  · rw [List.length_append, List.length_replicate]
    omega

/-- Zeros between the digits and the point, and one behind it. -/
theorem spells_above (notZero : first ≠ '0') (zeros : Nat) :
    Spells (first :: others ++ List.replicate zeros '0' ++ ['.', '0'])
      (numeral 10 (first :: others) * 10 ^ (zeros + 1)) (-1) := by
  have digits : ∀ c ∈ first :: (others ++ List.replicate zeros '0'), isAsciiDigit c = true := by
    intro c there
    rw [← List.cons_append] at there
    rcases List.mem_append.mp there with digit | zero
    · exact all c digit
    · rw [List.eq_of_mem_replicate zero]
      rfl
  refine ⟨_, ['0'], 0, ['.', '0'], rfl, isWhole_cons notZero digits,
    .fraction (isDigits_toDigits 0), ?_, rfl⟩
  rw [List.append_assoc]
  show _ = numeral 10 (first :: others ++ (_ ++ List.replicate 1 '0'))
  rw [List.replicate_append_replicate, numeral_append_zeros]

/-- The point among the digits. -/
theorem spells_among (notZero : first ≠ '0') {places : Nat} (less : places < others.length) :
    Spells (first :: others.take places ++ '.' :: others.drop places)
      (numeral 10 (first :: others)) ((places : Int) + 1 - (first :: others).length) := by
  have whole : IsWhole (first :: others.take places) := isWhole_cons notZero fun c there =>
    all c (List.take_subset (places + 1) (first :: others) there)
  have fraction : IsDigits (others.drop places) := by
    refine ⟨fun none => ?_, fun c there => ?_⟩
    · have short := List.drop_eq_nil_iff.mp none
      omega
    · exact all c (List.drop_subset (places + 1) (first :: others) there)
  refine ⟨_, _, 0, _, rfl, whole, .fraction fraction, ?_, ?_⟩
  · rw [List.cons_append, List.take_append_drop]
  · rw [List.length_cons, List.length_drop]
    omega

/-- One digit before the point, and the exponent behind the others. -/
theorem spells_scientific (notZero : first ≠ '0') {sign : Char} {size : List Char}
    (signed : sign = '-' ∨ sign = '+') (some : IsDigits size) :
    Spells ((match first :: others with
        | [] => ['0']
        | [first] => [first]
        | first :: others => first :: '.' :: others) ++ 'e' :: sign :: size)
      (numeral 10 (first :: others)) (signedSize sign size - others.length) := by
  have one : IsWhole [first] := isWhole_cons notZero
    (List.forall_mem_singleton.mpr (all first List.mem_cons_self))
  cases others with
  | nil => exact ⟨[first], [], _, _, rfl, one, .exponent signed some, rfl, rfl⟩
  | cons second more =>
      have fraction : IsDigits (second :: more) :=
        ⟨List.cons_ne_nil _ _, fun c there => all c (List.mem_cons_of_mem _ there)⟩
      exact ⟨[first], second :: more, _, _, rfl, one, .both fraction signed some, rfl, rfl⟩

end

/-- An exponent is written with its sign and two digits at least. -/
theorem exists_signedSize (exponent : Int) : ∃ sign size,
    (if exponent < 0 then '-' else '+') = sign ∧
    (if (Nat.toDigits 10 exponent.natAbs).length < 2 then '0' :: Nat.toDigits 10 exponent.natAbs
      else Nat.toDigits 10 exponent.natAbs) = size ∧
    (sign = '-' ∨ sign = '+') ∧ IsDigits size ∧ signedSize sign size = exponent := by
  obtain ⟨zeros, padded⟩ : ∃ zeros, (if (Nat.toDigits 10 exponent.natAbs).length < 2
      then '0' :: Nat.toDigits 10 exponent.natAbs else Nat.toDigits 10 exponent.natAbs) =
        List.replicate zeros '0' ++ Nat.toDigits 10 exponent.natAbs := by
    split
    · exact ⟨1, rfl⟩
    · exact ⟨0, rfl⟩
  refine ⟨_, _, rfl, padded, ?_, isDigits_zeros_append (isDigits_toDigits _) zeros, ?_⟩
  · split
    · exact Or.inl rfl
    · exact Or.inr rfl
  · rw [signedSize, numeral_zeros_append, numeral_toDigits]
    split
    · next below =>
      rw [if_pos rfl]
      omega
    · next above =>
      rw [if_neg (by decide)]
      omega

/-- A positive decimal is written with a fraction, an exponent or both, and the numeral spells what
the decimal is. -/
theorem spells_render {d : Decimal} (positive : 0 < d.digits) :
    ∃ zeros : Nat, Spells d.render (numeral 10 (significantDigits d.digits) * 10 ^ zeros)
      (d.point - (significantDigits d.digits).length - zeros) := by
  obtain ⟨first, others, digits, notZero, all⟩ := significantDigits_cons positive
  unfold Decimal.render
  dsimp only
  rw [digits]
  split
  · split
    · next inside below =>
      have power : d.point - (first :: others).length - (0 : Nat) =
          -((-d.point).toNat : Int) - (first :: others).length := by omega
      refine ⟨0, ?_⟩
      rw [power, Nat.pow_zero, Nat.mul_one]
      exact spells_below all _
    split
    · next above enough =>
      have power : d.point - (first :: others).length -
          ((d.point - (first :: others).length).toNat + 1 : Nat) = -1 := by omega
      refine ⟨(d.point - (first :: others).length).toNat + 1, ?_⟩
      rw [power]
      exact spells_above all notZero _
    · next above before =>
      obtain ⟨places, same⟩ : ∃ places, d.point.toNat = places + 1 :=
        Nat.exists_eq_add_one.mpr (by omega)
      have less : places < others.length := by
        rw [List.length_cons] at before
        omega
      have power : d.point - (first :: others).length - (0 : Nat) =
          (places : Int) + 1 - (first :: others).length := by omega
      refine ⟨0, ?_⟩
      rw [same, power, Nat.pow_zero, Nat.mul_one]
      exact spells_among all notZero less
  · obtain ⟨sign, size, chosen, padded, signed, some, exponent⟩ := exists_signedSize (d.point - 1)
    have power : d.point - (first :: others).length - (0 : Nat) =
        signedSize sign size - others.length := by
      rw [exponent, List.length_cons]
      omega
    refine ⟨0, ?_⟩
    rw [chosen, padded, power, Nat.pow_zero, Nat.mul_one]
    exact spells_scientific all notZero signed some

theorem isReal_render {d : Decimal} (positive : 0 < d.digits) : IsReal d.render := by
  obtain ⟨zeros, spells⟩ := spells_render positive
  exact ⟨_, _, spells⟩

theorem mem_isReal {text : List Char} (h : IsReal text) {c : Char} (there : c ∈ text) :
    isAsciiDigit c = true ∨ c ∈ ['.', 'e', '-', '+'] := by
  obtain ⟨_, _, whole, fraction, exponent, tail, rfl, digits, form, -, -⟩ := h
  rcases List.mem_append.mp there with inside | inside
  · exact Or.inl (digits.1.2 c inside)
  cases form with
  | fraction some =>
      rcases List.mem_cons.mp inside with rfl | digit
      · exact Or.inr (by decide)
      · exact Or.inl (some.2 c digit)
  | @exponent sign size signed some =>
      rcases List.mem_cons.mp inside with rfl | inside
      · exact Or.inr (by decide)
      rcases List.mem_cons.mp inside with rfl | digit
      · rcases signed with rfl | rfl <;> exact Or.inr (by decide)
      · exact Or.inl (some.2 c digit)
  | @both _ sign size some signed others =>
      rw [List.cons_append, List.mem_cons, List.mem_append, List.mem_cons, List.mem_cons] at inside
      rcases inside with rfl | digit | rfl | rfl | digit
      · exact Or.inr (by decide)
      · exact Or.inl (some.2 c digit)
      · exact Or.inr (by decide)
      · rcases signed with rfl | rfl <;> exact Or.inr (by decide)
      · exact Or.inl (others.2 c digit)

/-! ## Shortest decimals -/

theorem ofBinary_num_pos {n : Nat} (positive : 0 < n) (exponent : Int) :
    0 < (Fraction.ofBinary n exponent).num := by
  unfold Fraction.ofBinary
  split
  · exact Nat.mul_pos positive (Nat.two_pow_pos _)
  · exact positive

theorem ofDecimal_den_pos (n : Nat) (exponent : Int) : 0 < (Fraction.ofDecimal n exponent).den := by
  unfold Fraction.ofDecimal
  split
  · exact Nat.one_pos
  · exact Nat.pow_pos (by omega)

theorem ofDecimal_zero_num (exponent : Int) : (Fraction.ofDecimal 0 exponent).num = 0 := by
  unfold Fraction.ofDecimal
  split
  · exact Nat.zero_mul _
  · rfl

/-- Zero rounds to no positive number: it lies below the interval of each. -/
theorem roundsTo_zero {significand : Nat} (positive : 0 < significand) (exponent power : Int) :
    Double.roundsTo significand exponent (Fraction.ofDecimal 0 power) = false := by
  have above : ∀ low : Fraction, 0 < low.num →
      low.le (Fraction.ofDecimal 0 power) = false ∧ low.lt (Fraction.ofDecimal 0 power) = false := by
    intro low some
    have product : 0 < low.num * (Fraction.ofDecimal 0 power).den :=
      Nat.mul_pos some (ofDecimal_den_pos 0 power)
    rw [Fraction.le, Fraction.lt, ofDecimal_zero_num, Nat.zero_mul]
    refine ⟨?_, ?_⟩ <;> simp only [decide_eq_false_iff_not] <;> omega
  unfold Double.roundsTo
  dsimp only
  obtain ⟨notAtMost, notLess⟩ := above
    (if significand == Nat.pow 2 52 && Double.leastExponent < exponent then
      Fraction.ofBinary (4 * significand - 1) (exponent - 2)
    else Fraction.ofBinary (2 * significand - 1) (exponent - 1)) (by
      split
      · exact ofBinary_num_pos (by omega) _
      · exact ofBinary_num_pos (by omega) _)
  rw [notAtMost, notLess]
  simp

theorem withDigits_pos {significand : Nat} (positive : 0 < significand) {exponent point : Int}
    {value : Fraction} {count n : Nat}
    (found : Double.withDigits significand exponent value point count = some n) : 0 < n := by
  unfold Double.withDigits at found
  dsimp only at found
  generalize value.floorDiv (Fraction.ofDecimal 1 (point - count)) = below at found
  rcases Nat.eq_zero_or_pos below with rfl | some
  · -- the lower neighbour is zero and does not fit
    rw [roundsTo_zero positive] at found
    simp only [Bool.false_and, Bool.false_eq_true, if_false] at found
    split at found
    · cases found
      exact Nat.one_pos
    · cases found
  · split at found
    · split at found
      · cases found
        exact some
      split at found
      · cases found
        omega
      split at found
      · cases found
        exact some
      · cases found
        omega
    split at found
    · cases found
      exact some
    split at found
    · cases found
      omega
    · cases found

theorem shortest_pos {significand : Nat} (positive : 0 < significand) (exponent : Int) :
    0 < (Double.shortest significand exponent).digits := by
  unfold Double.shortest
  dsimp only
  split
  · next n count found =>
    obtain ⟨i, -, inside⟩ := List.exists_of_findSome?_eq_some found
    obtain ⟨digits, fits, same⟩ := Option.map_eq_some_iff.mp inside
    cases same
    split
    · exact Nat.one_pos
    · exact withDigits_pos positive fits
  · exact positive

/-- What a finite number is written as behind its sign. -/
def magnitude (significand : Nat) (exponent : Int) : List Char :=
  if significand = 0 then ['0', '.', '0'] else (Double.shortest significand exponent).render

theorem toList_render_finite (names : NumberNames) (negative : Bool) (significand : Nat)
    (exponent : Int) :
    ((Double.finite negative significand exponent).render names).toList =
      if negative then '-' :: magnitude significand exponent
      else magnitude significand exponent := by
  by_cases zero : significand = 0 <;> simp [Double.render, magnitude, zero]

/-- A finite number is written with a fraction or an exponent. -/
theorem isReal_magnitude (significand : Nat) (exponent : Int) :
    IsReal (magnitude significand exponent) := by
  unfold magnitude
  split
  · exact ⟨_, _, spells_zero⟩
  · next some => exact isReal_render (shortest_pos (Nat.pos_of_ne_zero some) exponent)

end MessageCatalog.Number
