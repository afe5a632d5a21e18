import Mathlib.Algebra.Order.Field.Power
import Mathlib.Data.Rat.Cast.Order
import Mathlib.Tactic.FieldSimp
import Mathlib.Tactic.Linarith
import Mathlib.Tactic.Ring
import MessageCatalog.Proofs.Number.Written

/-!
# MessageCatalog.Proofs.Number.Rounding -- which number a fraction is rounded to

A fraction is rounded on the grid of the format: its size decides the exponent, and the significand
is the natural nearest to what is left, the even one when two are as near. A fraction between the
midpoints around a number of the format is rounded to that number.
-/

namespace MessageCatalog.Number

/-! ## Fractions as rational numbers -/

namespace Fraction

/-- The rational number that a fraction is. -/
def value (f : Fraction) : ℚ := f.num / f.den

theorem lt_iff {a b : Fraction} (left : 0 < a.den) (right : 0 < b.den) :
    a.lt b = true ↔ a.value < b.value := by
  have left' : (0 : ℚ) < a.den := by exact_mod_cast left
  have right' : (0 : ℚ) < b.den := by exact_mod_cast right
  rw [lt, decide_eq_true_eq, value, value, div_lt_div_iff₀ left' right']
  exact_mod_cast Iff.rfl

theorem le_iff {a b : Fraction} (left : 0 < a.den) (right : 0 < b.den) :
    a.le b = true ↔ a.value ≤ b.value := by
  have left' : (0 : ℚ) < a.den := by exact_mod_cast left
  have right' : (0 : ℚ) < b.den := by exact_mod_cast right
  rw [le, decide_eq_true_eq, value, value, div_le_div_iff₀ left' right']
  exact_mod_cast Iff.rfl

theorem ofBinary_den_pos (n : Nat) (exponent : Int) : 0 < (ofBinary n exponent).den := by
  unfold ofBinary
  split
  · exact Nat.one_pos
  · exact Nat.two_pow_pos _

theorem value_ofBinary (n : Nat) (exponent : Int) :
    (ofBinary n exponent).value = n * (2 : ℚ) ^ exponent := by
  unfold ofBinary value
  split
  · next above =>
    obtain ⟨k, rfl⟩ := Int.eq_ofNat_of_zero_le above
    simp
  · next below =>
    obtain ⟨k, rfl⟩ : ∃ k : Nat, exponent = -k := ⟨(-exponent).toNat, by omega⟩
    simp [div_eq_mul_inv]

theorem value_ofDecimal (n : Nat) (exponent : Int) :
    (ofDecimal n exponent).value = n * (10 : ℚ) ^ exponent := by
  unfold ofDecimal value
  split
  · next above =>
    obtain ⟨k, rfl⟩ := Int.eq_ofNat_of_zero_le above
    simp
  · next below =>
    obtain ⟨k, rfl⟩ : ∃ k : Nat, exponent = -k := ⟨(-exponent).toNat, by omega⟩
    simp [div_eq_mul_inv]

/-- The natural part of a quotient is the last multiple that is not above. -/
theorem floorDiv_spec {a b : Fraction} (left : 0 < a.den) (some : 0 < b.num) (right : 0 < b.den) :
    a.floorDiv b * b.value ≤ a.value ∧ a.value < (a.floorDiv b + 1) * b.value := by
  have left' : (0 : ℚ) < a.den := by exact_mod_cast left
  have right' : (0 : ℚ) < b.den := by exact_mod_cast right
  have below : a.floorDiv b * (a.den * b.num) ≤ a.num * b.den := Nat.div_mul_le_self _ _
  have above : a.num * b.den < (a.floorDiv b + 1) * (a.den * b.num) := by
    rw [Nat.add_mul, Nat.one_mul]
    exact Nat.lt_div_mul_add (Nat.mul_pos left some)
  have below' : (a.floorDiv b * (a.den * b.num) : ℚ) ≤ a.num * b.den := by exact_mod_cast below
  have above' : (a.num * b.den : ℚ) < (a.floorDiv b + 1) * (a.den * b.num) := by
    exact_mod_cast above
  rw [value, value, mul_div_assoc', mul_div_assoc', div_le_div_iff₀ right' left',
    div_lt_div_iff₀ left' right']
  constructor <;> linarith

end Fraction

/-! ## The nearest natural -/

/-- A natural is nearest to a rational number, and even when it lies halfway to another. -/
structure NearestEven (n : Nat) (x : ℚ) : Prop where
  below : (n : ℚ) - 1 / 2 ≤ x
  above : x ≤ n + 1 / 2
  even : x = n - 1 / 2 ∨ x = n + 1 / 2 → n % 2 = 0

theorem NearestEven.not_lt {n m : Nat} {x : ℚ} (h : NearestEven n x) (h' : NearestEven m x) :
    ¬n < m := by
  intro less
  have next : (n : ℚ) + 1 ≤ m := by exact_mod_cast less
  have one := h.above
  have two := h'.below
  -- both lie half away from the number, so they are neighbours, and not both even
  have same : (m : ℚ) = n + 1 := by linarith
  have even := h.even (Or.inr (by linarith))
  have even' := h'.even (Or.inl (by linarith))
  have same' : m = n + 1 := by exact_mod_cast same
  omega

theorem NearestEven.unique {n m : Nat} {x : ℚ} (h : NearestEven n x) (h' : NearestEven m x) :
    n = m :=
  Nat.le_antisymm (Nat.le_of_not_lt (h'.not_lt h)) (Nat.le_of_not_lt (h.not_lt h'))

theorem nearestEven_roundDiv (num : Nat) {den : Nat} (positive : 0 < den) :
    NearestEven (Double.roundDiv num den) (num / den) := by
  have positive' : (0 : ℚ) < den := by exact_mod_cast positive
  have rest : num % den < den := Nat.mod_lt _ positive
  have rest' : ((num % den : Nat) : ℚ) < den := by exact_mod_cast rest
  have rest0 : (0 : ℚ) ≤ (num % den : Nat) := Nat.cast_nonneg _
  have parts : (num : ℚ) = (num / den : Nat) * den + (num % den : Nat) := by
    exact_mod_cast (Nat.div_add_mod' num den).symm
  -- the fraction is its natural part and what is left over the denominator
  obtain ⟨x, left⟩ : ∃ x : ℚ, x * den = (num % den : Nat) :=
    ⟨(num % den : Nat) / den, div_mul_cancel₀ _ positive'.ne'⟩
  have whole : (num : ℚ) / den = (num / den : Nat) + x := by
    rw [div_eq_iff positive'.ne', parts, add_mul, left]
  have low : 0 ≤ x := by nlinarith
  have high : x < 1 := by nlinarith
  have next : ((num / den + 1 : Nat) : ℚ) = (num / den : Nat) + 1 := Nat.cast_succ _
  rw [whole]
  unfold Double.roundDiv
  dsimp only
  split
  · next small =>
    have small' : 2 * ((num % den : Nat) : ℚ) < den := by exact_mod_cast small
    have less : x < 1 / 2 := by nlinarith
    exact ⟨by linarith, by linarith, fun half => by rcases half with half | half <;> linarith⟩
  split
  · next large =>
    have large' : (den : ℚ) < 2 * ((num % den : Nat) : ℚ) := by exact_mod_cast large
    have more : 1 / 2 < x := by nlinarith
    exact ⟨by linarith, by linarith, fun half => by rcases half with half | half <;> linarith⟩
  · next notSmall notLarge =>
    have half : 2 * (num % den) = den := by omega
    have half' : 2 * ((num % den : Nat) : ℚ) = den := by exact_mod_cast half
    have middle : x = 1 / 2 := by nlinarith
    subst middle
    split
    · next even => exact ⟨by linarith, by linarith, fun _ => by simpa using even⟩
    · next odd =>
      have odd' : num / den % 2 ≠ 0 := by simpa using odd
      exact ⟨by linarith, by linarith, fun _ => by omega⟩

/-! ## Rounding on the grid -/

namespace Double

/-- A significand and an exponent as the format has them: a significand has all its bits, unless the
exponent is the least. -/
structure Canonical (significand : Nat) (exponent : Int) : Prop where
  fits : significand < 2 ^ 53
  least : leastExponent ≤ exponent
  greatest : exponent ≤ greatestExponent
  full : 2 ^ 52 ≤ significand ∨ exponent = leastExponent

/-- A number as the format has it. -/
def Proper : Double → Prop
  | .nan => True
  | .infinite _ => True
  | .finite _ significand exponent => Canonical significand exponent

theorem scaleDown_den_pos (num : Nat) {den : Nat} (positive : 0 < den) (exponent : Int) :
    0 < (scaleDown num den exponent).2 := by
  unfold scaleDown
  split
  · exact Nat.mul_pos positive (Nat.two_pow_pos _)
  · exact positive

theorem scaleDown_value (num den : Nat) (exponent : Int) :
    ((scaleDown num den exponent).1 : ℚ) / (scaleDown num den exponent).2 =
      num / den / (2 : ℚ) ^ exponent := by
  unfold scaleDown
  split
  · next above =>
    obtain ⟨k, rfl⟩ := Int.eq_ofNat_of_zero_le above
    simp [div_div]
  · next below =>
    obtain ⟨k, rfl⟩ : ∃ k : Nat, exponent = -k := ⟨(-exponent).toNat, by omega⟩
    simp
    ring

/-! ### Powers of two -/

theorem le_scaled {q : ℚ} {size exponent : Int} :
    (2 : ℚ) ^ size ≤ q / 2 ^ exponent ↔ (2 : ℚ) ^ (size + exponent) ≤ q := by
  rw [le_div_iff₀ (zpow_pos two_pos _), ← zpow_add₀ two_ne_zero]

theorem scaled_lt {q : ℚ} {size exponent : Int} :
    q / 2 ^ exponent < (2 : ℚ) ^ size ↔ q < (2 : ℚ) ^ (size + exponent) := by
  rw [div_lt_iff₀ (zpow_pos two_pos _), ← zpow_add₀ two_ne_zero]

/-- Powers of two around the same number have neighbouring exponents. -/
theorem exponent_le {q : ℚ} {low high : Int} (below : (2 : ℚ) ^ low ≤ q)
    (above : q < (2 : ℚ) ^ high) : low < high :=
  (zpow_lt_zpow_iff_right₀ one_lt_two).mp (below.trans_lt above)

theorem log2_bounds {n : Nat} (positive : 0 < n) :
    (2 : ℚ) ^ (Nat.log2 n : Int) ≤ n ∧ (n : ℚ) < (2 : ℚ) ^ ((Nat.log2 n : Int) + 1) := by
  have low : 2 ^ Nat.log2 n ≤ n := Nat.log2_self_le positive.ne'
  have high : n < 2 ^ (Nat.log2 n + 1) := Nat.lt_log2_self
  constructor
  · exact_mod_cast low
  · exact_mod_cast high

/-! ### Powers of two and of ten -/

theorem ten_pow_pos (power : Int) : (0 : ℚ) < 10 ^ power := zpow_pos (by norm_num) _

theorem ten_zpow_add (left right : Int) : (10 : ℚ) ^ (left + right) = 10 ^ left * 10 ^ right :=
  zpow_add₀ (by norm_num) _ _

theorem ten_pow_lt {low high : Int} (h : (10 : ℚ) ^ low < 10 ^ high) : low < high :=
  (zpow_lt_zpow_iff_right₀ (by norm_num : (1 : ℚ) < 10)).mp h

/-- Sixty-three bits are fewer than nineteen digits. -/
theorem two_pow_le_ten_pow (bits places : Int) (some : 0 ≤ bits) (h : 19 * bits ≤ 63 * places) :
    (2 : ℚ) ^ bits ≤ 10 ^ places := by
  obtain ⟨n, rfl⟩ := Int.eq_ofNat_of_zero_le some
  obtain ⟨m, rfl⟩ := Int.eq_ofNat_of_zero_le (by omega : 0 ≤ places)
  refine (pow_le_pow_iff_left₀ (by positivity) (by positivity) (by norm_num : 63 ≠ 0)).mp ?_
  rw [zpow_natCast, zpow_natCast]
  calc ((2 : ℚ) ^ n) ^ 63 = (2 ^ 63) ^ n := by rw [← pow_mul, ← pow_mul, Nat.mul_comm]
    _ ≤ (10 ^ 19) ^ n := pow_le_pow_left₀ (by norm_num) (by norm_num) _
    _ = 10 ^ (19 * n) := (pow_mul _ _ _).symm
    _ ≤ 10 ^ (m * 63) := pow_le_pow_right₀ (by norm_num) (by omega)
    _ = (10 ^ m) ^ 63 := pow_mul _ _ _

/-- Three digits are fewer than ten bits. -/
theorem ten_pow_le_two_pow (bits places : Int) (some : 0 ≤ bits) (h : 10 * places ≤ 3 * bits) :
    (10 : ℚ) ^ places ≤ 2 ^ bits := by
  obtain ⟨n, rfl⟩ := Int.eq_ofNat_of_zero_le some
  rcases le_total 0 places with above | below
  · obtain ⟨m, rfl⟩ := Int.eq_ofNat_of_zero_le above
    refine (pow_le_pow_iff_left₀ (by positivity) (by positivity) (by norm_num : 3 ≠ 0)).mp ?_
    rw [zpow_natCast, zpow_natCast]
    calc ((10 : ℚ) ^ m) ^ 3 = (10 ^ 3) ^ m := by rw [← pow_mul, ← pow_mul, Nat.mul_comm]
      _ ≤ (2 ^ 10) ^ m := pow_le_pow_left₀ (by norm_num) (by norm_num) _
      _ = 2 ^ (10 * m) := (pow_mul _ _ _).symm
      _ ≤ 2 ^ (n * 3) := pow_le_pow_right₀ (by norm_num) (by omega)
      _ = (2 ^ n) ^ 3 := pow_mul _ _ _
  · exact (zpow_le_one_of_nonpos₀ (by norm_num) below).trans (one_le_zpow₀ one_le_two some)

/-- Between negative powers the order is the other way round. -/
theorem ten_pow_le_two_pow_neg {bits places : Int} (h : (2 : ℚ) ^ (-bits) ≤ 10 ^ (-places)) :
    (10 : ℚ) ^ places ≤ 2 ^ bits := by
  rwa [zpow_neg, zpow_neg, inv_le_inv₀ (zpow_pos two_pos _) (ten_pow_pos _)] at h

theorem two_pow_le_ten_pow_neg {bits places : Int} (h : (10 : ℚ) ^ (-places) ≤ 2 ^ (-bits)) :
    (2 : ℚ) ^ bits ≤ 10 ^ places := by
  rwa [zpow_neg, zpow_neg, inv_le_inv₀ (ten_pow_pos _) (zpow_pos two_pos _)] at h

/-! ### The exponent and the significand -/

/-- A significand and an exponent as a number, infinite when the exponent is too large. -/
def capped (negative : Bool) (significand : Nat) (exponent : Int) : Double :=
  if greatestExponent < exponent then .infinite negative
  else .finite negative significand exponent

/-- A significand that has been rounded up to one bit too many takes the next exponent. -/
def carried (negative : Bool) (significand : Nat) (exponent : Int) : Double :=
  if significand = Nat.pow 2 53 then capped negative (Nat.pow 2 52) (exponent + 1)
  else capped negative significand exponent

/-- The size of a fraction decides the exponent, unless it is below the least one. -/
theorem ofFraction_spec (negative : Bool) {num den : Nat} (some : 0 < num) (positive : 0 < den) :
    ∃ (fitted : Int) (significand : Nat),
      (2 : ℚ) ^ (52 + fitted) ≤ num / den ∧ (num : ℚ) / den < 2 ^ (53 + fitted) ∧
      NearestEven significand (num / den / (2 : ℚ) ^ max fitted leastExponent) ∧
      ofFraction negative num den = carried negative significand (max fitted leastExponent) := by
  obtain ⟨numLow, numHigh⟩ := log2_bounds some
  obtain ⟨denLow, denHigh⟩ := log2_bounds positive
  have den0 : (0 : ℚ) < den := by exact_mod_cast positive
  obtain ⟨guess, guessed⟩ : ∃ guess : Int, guess = (Nat.log2 num : Int) - Nat.log2 den - 52 :=
    ⟨_, rfl⟩
  have low : (2 : ℚ) ^ (51 + guess) ≤ num / den := by
    rw [le_div_iff₀ den0]
    calc (2 : ℚ) ^ (51 + guess) * den
        ≤ 2 ^ (51 + guess) * 2 ^ ((Nat.log2 den : Int) + 1) :=
          mul_le_mul_of_nonneg_left denHigh.le (zpow_pos two_pos _).le
      _ = 2 ^ (Nat.log2 num : Int) := by
          rw [← zpow_add₀ two_ne_zero]
          congr 1
          omega
      _ ≤ num := numLow
  have high : (num : ℚ) / den < 2 ^ (53 + guess) := by
    rw [div_lt_iff₀ den0]
    calc (num : ℚ) < 2 ^ ((Nat.log2 num : Int) + 1) := numHigh
      _ = 2 ^ (53 + guess) * 2 ^ (Nat.log2 den : Int) := by
          rw [← zpow_add₀ two_ne_zero]
          congr 1
          omega
      _ ≤ 2 ^ (53 + guess) * den := mul_le_mul_of_nonneg_left denLow (zpow_pos two_pos _).le
  -- the natural part on the guessed grid tells the two exponents apart that are left
  have scaled := scaleDown_value num den guess
  have scaled0 := scaleDown_den_pos num positive guess
  have part : ((scaleDown num den guess).1 / (scaleDown num den guess).2 < Nat.pow 2 52) ↔
      (num : ℚ) / den < 2 ^ (52 + guess) := by
    have scaled0' : (0 : ℚ) < (scaleDown num den guess).2 := by exact_mod_cast scaled0
    rw [← scaled_lt, ← scaled, div_lt_iff₀ scaled0', Nat.div_lt_iff_lt_mul scaled0]
    show _ < 2 ^ 52 * _ ↔ _
    exact_mod_cast Iff.rfl
  obtain ⟨fitted, chosen⟩ : ∃ fitted : Int, fitted =
      if (scaleDown num den guess).1 / (scaleDown num den guess).2 < Nat.pow 2 52 then guess - 1
      else guess := ⟨_, rfl⟩
  have bounds : (2 : ℚ) ^ (52 + fitted) ≤ num / den ∧ (num : ℚ) / den < 2 ^ (53 + fitted) := by
    rw [chosen]
    split
    · next small =>
      have left : 52 + (guess - 1) = 51 + guess := by omega
      have right : 53 + (guess - 1) = 52 + guess := by omega
      rw [left, right]
      exact ⟨low, part.mp small⟩
    · next large => exact ⟨le_of_not_gt fun less => large (part.mpr less), high⟩
  have near := nearestEven_roundDiv (scaleDown num den (max fitted leastExponent)).1
    (scaleDown_den_pos num positive (max fitted leastExponent))
  rw [scaleDown_value] at near
  refine ⟨fitted, _, bounds.1, bounds.2, near, ?_⟩
  unfold ofFraction
  dsimp only
  rw [← guessed, ← chosen]
  generalize roundDiv _ _ = significand
  unfold carried
  split
  · next same => rw [if_pos (eq_of_beq same), capped]
  · next other => rw [if_neg fun same => other (beq_iff_eq.mpr same), capped]

/-- What a fraction is rounded to has the form of the format. -/
theorem proper_ofFraction (negative : Bool) {num den : Nat} (some : 0 < num) (positive : 0 < den) :
    (ofFraction negative num den).Proper := by
  obtain ⟨fitted, significand, low, high, near, same⟩ := ofFraction_spec negative some positive
  have grown : fitted ≤ max fitted leastExponent := le_max_left _ _
  have least : leastExponent ≤ max fitted leastExponent := le_max_right _ _
  have top : (num : ℚ) / den / 2 ^ max fitted leastExponent < 2 ^ (53 : Int) := by
    rw [scaled_lt]
    exact high.trans_le (zpow_le_zpow_right₀ one_le_two (by omega))
  have fits : significand ≤ 2 ^ 53 := by
    by_contra more
    have more' : (2 : ℚ) ^ (53 : Int) + 1 ≤ significand := by exact_mod_cast not_le.mp more
    have below := near.below
    linarith
  have full : 2 ^ 52 ≤ significand ∨ max fitted leastExponent = leastExponent := by
    rcases le_total leastExponent fitted with above | below
    · left
      by_contra less
      have less' : (significand : ℚ) + 1 ≤ 2 ^ (52 : Int) := by exact_mod_cast not_le.mp less
      have reached : (2 : ℚ) ^ (52 : Int) ≤ num / den / 2 ^ max fitted leastExponent := by
        rw [le_scaled, max_eq_left above]
        exact low
      have above' := near.above
      linarith
    · exact Or.inr (max_eq_right below)
  have proper : ∀ significand exponent, significand < 2 ^ 53 → leastExponent ≤ exponent →
      (2 ^ 52 ≤ significand ∨ exponent = leastExponent) →
      (capped negative significand exponent).Proper := by
    intro significand exponent fits least full
    unfold capped
    split
    · exact trivial
    · next inside => exact ⟨fits, least, not_lt.mp inside, full⟩
  rw [same, carried]
  split
  · exact proper _ _ (by decide) (by omega) (Or.inl (by decide))
  · next other => exact proper _ _ (lt_of_le_of_ne fits other) least full

/-! ## Numbers around a number of the format -/

/-- How far down a fraction is rounded to a number, in units of the exponent: to the midpoint to the
number below, which is half as far for the least number of an exponent. -/
def lowest (significand : Nat) (exponent : Int) : ℚ :=
  if significand = Nat.pow 2 52 ∧ leastExponent < exponent then significand - 1 / 4
  else significand - 1 / 2

/-- A number lies between the midpoints around `significand * 2 ^ exponent`, which count when the
significand is even. -/
def Around (significand : Nat) (exponent : Int) (q : ℚ) : Prop :=
  if significand % 2 = 0 then
    lowest significand exponent ≤ q / 2 ^ exponent ∧ q / 2 ^ exponent ≤ significand + 1 / 2
  else lowest significand exponent < q / 2 ^ exponent ∧ q / 2 ^ exponent < significand + 1 / 2

theorem roundsTo_iff {significand : Nat} (positive : 0 < significand) (exponent : Int)
    {candidate : Fraction} (some : 0 < candidate.den) :
    roundsTo significand exponent candidate = true ↔
      Around significand exponent candidate.value := by
  have unit : (0 : ℚ) < 2 ^ exponent := zpow_pos two_pos _
  have half : (2 : ℚ) ^ (exponent - 1) = 2 ^ exponent / 2 := by
    rw [zpow_sub₀ two_ne_zero, zpow_one]
  have quarter : (2 : ℚ) ^ (exponent - 2) = 2 ^ exponent / 4 := by
    rw [zpow_sub₀ two_ne_zero]
    norm_num
  have two : ((2 * significand - 1 : Nat) : ℚ) = 2 * significand - 1 := by
    rw [Nat.cast_sub (by omega)]
    push_cast
    ring
  have four : ((4 * significand - 1 : Nat) : ℚ) = 4 * significand - 1 := by
    rw [Nat.cast_sub (by omega)]
    push_cast
    ring
  have high : (Fraction.ofBinary (2 * significand + 1) (exponent - 1)).value =
      (significand + 1 / 2) * 2 ^ exponent := by
    rw [Fraction.value_ofBinary, half]
    push_cast
    ring
  obtain ⟨low, chosen⟩ : ∃ low : Fraction, low =
      if significand == Nat.pow 2 52 && leastExponent < exponent then
        Fraction.ofBinary (4 * significand - 1) (exponent - 2)
      else Fraction.ofBinary (2 * significand - 1) (exponent - 1) := ⟨_, rfl⟩
  have low0 : 0 < low.den := by
    rw [chosen]
    split <;> exact Fraction.ofBinary_den_pos _ _
  have lowValue : low.value = lowest significand exponent * 2 ^ exponent := by
    rw [chosen, lowest]
    by_cases edge : significand = Nat.pow 2 52 ∧ leastExponent < exponent
    · rw [if_pos edge, if_pos (by simpa using edge), Fraction.value_ofBinary, quarter, four]
      ring
    · rw [if_neg edge, if_neg (by simpa using edge), Fraction.value_ofBinary, half, two]
      ring
  unfold roundsTo Around
  dsimp only
  rw [← chosen]
  have high0 := Fraction.ofBinary_den_pos (2 * significand + 1) (exponent - 1)
  by_cases even : significand % 2 = 0
  · rw [if_pos (by simpa using even), if_pos even, Bool.and_eq_true, Fraction.le_iff low0 some,
      Fraction.le_iff some high0, high, lowValue, le_div_iff₀ unit, div_le_iff₀ unit]
  · rw [if_neg (by simpa using even), if_neg even, Bool.and_eq_true, Fraction.lt_iff low0 some,
      Fraction.lt_iff some high0, high, lowValue, lt_div_iff₀ unit, div_lt_iff₀ unit]

theorem half_le_lowest (significand : Nat) (exponent : Int) :
    (significand : ℚ) - 1 / 2 ≤ lowest significand exponent := by
  unfold lowest
  split <;> linarith

theorem Around.bounds {significand : Nat} {exponent : Int} {q : ℚ}
    (h : Around significand exponent q) :
    lowest significand exponent ≤ q / 2 ^ exponent ∧ q / 2 ^ exponent ≤ significand + 1 / 2 := by
  unfold Around at h
  split at h
  · exact h
  · exact ⟨h.1.le, h.2.le⟩

theorem Around.nearest {significand : Nat} {exponent : Int} {q : ℚ}
    (h : Around significand exponent q) : NearestEven significand (q / 2 ^ exponent) := by
  have low := half_le_lowest significand exponent
  obtain ⟨below, above⟩ := h.bounds
  refine ⟨low.trans below, above, fun half => ?_⟩
  by_contra odd
  rw [Around, if_neg odd] at h
  rcases half with half | half <;> linarith [h.1, h.2]

/-- A fraction around a number of the format is rounded to it. -/
theorem ofFraction_around {significand : Nat} {exponent : Int}
    (canonical : Canonical significand exponent) (negative : Bool) {num den : Nat}
    (some : 0 < num) (positive : 0 < den) (around : Around significand exponent (num / den)) :
    ofFraction negative num den = .finite negative significand exponent := by
  obtain ⟨fitted, rounded, low, high, near, same⟩ := ofFraction_spec negative some positive
  obtain ⟨below, above⟩ := around.bounds
  have least := canonical.least
  have greatest := canonical.greatest
  have size : (significand : ℚ) + 1 ≤ 2 ^ (53 : Int) := by exact_mod_cast canonical.fits
  rw [same]
  by_cases edge : (significand = Nat.pow 2 52 ∧ leastExponent < exponent) ∧
      (num : ℚ) / den / 2 ^ exponent < 2 ^ (52 : Int)
  · -- just below a power of two the grid is finer, and the number is reached by carrying
    obtain ⟨⟨power, inside⟩, less⟩ := edge
    rw [lowest, if_pos ⟨power, inside⟩] at below
    have full : (significand : ℚ) = 2 ^ (52 : Int) := by
      rw [power]
      norm_cast
    have down : (2 : ℚ) ^ (51 : Int) ≤ num / den / 2 ^ exponent := by
      rw [full] at below
      norm_num at below ⊢
      linarith
    have first := exponent_le low (scaled_lt.mp less)
    have second := exponent_le (le_scaled.mp down) high
    have before : max fitted leastExponent = exponent - 1 := by omega
    have double : (num : ℚ) / den / 2 ^ (exponent - 1) = 2 * (num / den / 2 ^ exponent) := by
      rw [zpow_sub₀ two_ne_zero, zpow_one]
      field_simp
    have next : ((Nat.pow 2 53 : Nat) : ℚ) = 2 * significand := by
      rw [power]
      norm_cast
    have carry : NearestEven (Nat.pow 2 53) (num / den / 2 ^ (exponent - 1)) := by
      rw [double]
      refine ⟨by linarith, by linarith, fun _ => by decide⟩
    rw [before] at near ⊢
    rw [near.unique carry, carried, if_pos rfl, capped, if_neg (by omega), power,
      sub_add_cancel]
  · have inside : (num : ℚ) / den / 2 ^ exponent < 2 ^ (53 : Int) := by linarith
    have first := exponent_le low (scaled_lt.mp inside)
    have here : max fitted leastExponent = exponent := by
      rcases canonical.full with full | bottom
      · rcases least.eq_or_lt with bottom | inside
        · omega
        have up : (2 : ℚ) ^ (52 : Int) ≤ num / den / 2 ^ exponent := by
          by_contra less
          have less := not_le.mp less
          have more : significand ≠ Nat.pow 2 52 := fun power => edge ⟨⟨power, inside⟩, less⟩
          have more' : (2 : ℚ) ^ (52 : Int) + 1 ≤ significand := by
            have strict : 2 ^ 52 < significand := lt_of_le_of_ne full (Ne.symm more)
            exact_mod_cast strict
          linarith [half_le_lowest significand exponent]
        have second := exponent_le (le_scaled.mp up) high
        omega
      · omega
    rw [here] at near ⊢
    have other : significand ≠ Nat.pow 2 53 := ne_of_lt canonical.fits
    rw [near.unique around.nearest, carried, if_neg other, capped, if_neg (by omega)]

/-! ## Decimals -/

/-- The places of a natural say how large it is. -/
theorem places_bounds {n : Nat} (positive : 0 < n) :
    (10 : ℚ) ^ (((Nat.toDigits 10 n).length : Int) - 1) ≤ n ∧
      (n : ℚ) < 10 ^ ((Nat.toDigits 10 n).length : Int) := by
  have some : 0 < (Nat.toDigits 10 n).length :=
    List.length_pos_of_ne_nil Nat.toDigits_ne_nil
  obtain ⟨before, places⟩ := Nat.exists_eq_add_one.mpr some
  have above : n < 10 ^ (Nat.toDigits 10 n).length :=
    (Nat.length_toDigits_le_iff (by omega) some).mp (Nat.le_refl _)
  have below : 10 ^ before ≤ n := by
    rcases Nat.eq_zero_or_pos before with rfl | more
    · exact positive
    · by_contra less
      have short := (Nat.length_toDigits_le_iff (b := 10) (by omega) more).mpr (not_le.mp less)
      omega
  refine ⟨?_, by exact_mod_cast above⟩
  rw [places]
  push_cast
  rw [add_sub_cancel_right, zpow_natCast]
  exact_mod_cast below

theorem proper_zero (negative : Bool) : (zero negative).Proper :=
  ⟨by decide, by decide, by decide, Or.inr rfl⟩

/-- What a decimal is rounded to has the form of the format. -/
theorem proper_ofDecimal (negative : Bool) (digits : Nat) (power : Int) :
    (ofDecimal negative digits power).Proper := by
  unfold ofDecimal
  split
  · exact proper_zero negative
  next some =>
  have some : 0 < digits := Nat.pos_of_ne_zero (by simpa using some)
  dsimp only
  split
  · exact trivial
  split
  · exact proper_zero negative
  split
  · exact proper_ofFraction negative (Nat.mul_pos some (Nat.pow_pos (by omega))) Nat.one_pos
  · exact proper_ofFraction negative some (Nat.pow_pos (by omega))

/-- A decimal around a number of the format is rounded to it. -/
theorem ofDecimal_around {significand : Nat} {exponent : Int}
    (canonical : Canonical significand exponent) (positive : 0 < significand) (negative : Bool)
    {digits : Nat} (some : 0 < digits) {power : Int}
    (around : Around significand exponent (digits * 10 ^ power)) :
    ofDecimal negative digits power = .finite negative significand exponent := by
  obtain ⟨below, above⟩ := around.bounds
  obtain ⟨low, high⟩ := places_bounds some
  have one : (1 : ℚ) ≤ significand := by exact_mod_cast positive
  have size : (significand : ℚ) + 1 ≤ 2 ^ (53 : Int) := by exact_mod_cast canonical.fits
  -- a number of the format is far from both ends of the powers that are decided at once
  have less : ((Nat.toDigits 10 digits).length : Int) - 1 + power < 342 := by
    have greatest : exponent ≤ 971 := canonical.greatest
    refine ten_pow_lt ?_
    calc (10 : ℚ) ^ (((Nat.toDigits 10 digits).length : Int) - 1 + power)
        = 10 ^ (((Nat.toDigits 10 digits).length : Int) - 1) * 10 ^ power := ten_zpow_add _ _
      _ ≤ digits * 10 ^ power := mul_le_mul_of_nonneg_right low (ten_pow_pos _).le
      _ < 2 ^ (53 + exponent) := scaled_lt.mp (by linarith)
      _ ≤ 2 ^ (1024 : Int) := zpow_le_zpow_right₀ one_le_two (by omega)
      _ ≤ 10 ^ (342 : Int) := two_pow_le_ten_pow _ _ (by omega) (by omega)
  have more : (-360 : Int) < (Nat.toDigits 10 digits).length + power := by
    have least : -1074 ≤ exponent := canonical.least
    refine ten_pow_lt ?_
    calc (10 : ℚ) ^ (-360 : Int) ≤ 2 ^ (-1075 : Int) :=
          ten_pow_le_two_pow_neg (two_pow_le_ten_pow _ _ (by omega) (by omega))
      _ ≤ 2 ^ (-1 + exponent) := zpow_le_zpow_right₀ one_le_two (by omega)
      _ ≤ digits * 10 ^ power := by
          refine le_scaled.mp ?_
          rw [zpow_neg_one]
          linarith [half_le_lowest significand exponent]
      _ < 10 ^ ((Nat.toDigits 10 digits).length : Int) * 10 ^ power :=
          mul_lt_mul_of_pos_right high (ten_pow_pos _)
      _ = 10 ^ (((Nat.toDigits 10 digits).length : Int) + power) := (ten_zpow_add _ _).symm
  unfold ofDecimal
  rw [if_neg (by simpa using some.ne')]
  dsimp only
  rw [if_neg (by omega), if_neg (by omega)]
  split
  · next up =>
    obtain ⟨k, rfl⟩ := Int.eq_ofNat_of_zero_le up
    refine ofFraction_around canonical negative (Nat.mul_pos some (Nat.pow_pos (by omega)))
      Nat.one_pos ?_
    simpa using around
  · next down =>
    obtain ⟨k, rfl⟩ : ∃ k : Nat, power = -k := ⟨(-power).toNat, by omega⟩
    refine ofFraction_around canonical negative some (Nat.pow_pos (by omega)) ?_
    simpa [div_eq_mul_inv] using around

end Double

end MessageCatalog.Number
