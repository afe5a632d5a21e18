import MessageCatalog.Proofs.Number.Rounding

/-!
# MessageCatalog.Proofs.Number.Shortest -- the digits of a number read back

The number of digits before the point of a number is found by a search from an estimate that is
never too large. Seventeen digits are always enough: one of the two neighbours on their grid is
nearer to the number than the midpoints to the numbers around it. So the shortest decimal of a
number is one that is rounded to it.
-/

namespace MessageCatalog.Number

/-- The rational number that a decimal is. -/
def Decimal.value (d : Decimal) : ℚ :=
  d.digits * 10 ^ (d.point - (Nat.toDigits 10 d.digits).length)

namespace Double

/-! ## The point -/

/-- A number has so many digits before its point. -/
def HasPoint (value : ℚ) (point : Int) : Prop := (10 : ℚ) ^ (point - 1) ≤ value ∧ value < 10 ^ point

/-- The search ends behind the digits before the point when it starts at most there and does not run
out of steps. -/
theorem pointOf_spec {value : Fraction} (some : 0 < value.den) {fuel : Nat} {start : Int}
    (low : (10 : ℚ) ^ (start - 1) ≤ value.value) (high : value.value < 10 ^ (start + fuel)) :
    HasPoint value.value (pointOf value fuel start) := by
  induction fuel generalizing start with
  | zero => exact ⟨low, by simpa [pointOf] using high⟩
  | succ fuel ih =>
      have compared : value.lt (Fraction.ofDecimal 1 start) = true ↔ value.value < 10 ^ start := by
        rw [Fraction.lt_iff some (ofDecimal_den_pos 1 start), Fraction.value_ofDecimal,
          Nat.cast_one, one_mul]
      rw [pointOf]
      split
      · next below => exact ⟨low, compared.mp below⟩
      · next above =>
        refine ih ?_ ?_
        · rw [add_sub_cancel_right]
          exact not_lt.mp fun less => above (compared.mpr less)
        · have more : start + 1 + (fuel : Int) = start + (fuel + 1 : Nat) := by push_cast; ring
          rwa [more]

/-- The digits of a power of two are estimated from its bits, and never more than two too many. -/
theorem estimate_low {size : Int} (least : -1074 ≤ size) (greatest : size ≤ 1023) :
    (10 : ℚ) ^ (size * 30103 / 100000 - 2) ≤ 2 ^ size := by
  rcases le_total 0 size with above | below
  · exact ten_pow_le_two_pow _ _ above (by omega)
  · exact ten_pow_le_two_pow_neg (two_pow_le_ten_pow _ _ (by omega) (by omega))

theorem estimate_high {size : Int} (least : -1074 ≤ size) (greatest : size ≤ 1023) :
    (2 : ℚ) ^ (size + 1) ≤ 10 ^ (size * 30103 / 100000 + 5) := by
  rcases le_total 0 (size + 1) with above | below
  · exact two_pow_le_ten_pow _ _ above (by omega)
  · exact two_pow_le_ten_pow_neg (ten_pow_le_two_pow _ _ (by omega) (by omega))

variable {significand : Nat} {exponent : Int}

/-- The point of a number of the format is found. -/
theorem hasPoint_of_canonical (canonical : Canonical significand exponent)
    (positive : 0 < significand) :
    HasPoint (significand * 2 ^ exponent) (pointOf (Fraction.ofBinary significand exponent) 6
      (((Nat.log2 significand : Int) + exponent) * 30103 / 100000 - 1)) := by
  obtain ⟨low, high⟩ := log2_bounds positive
  have unit : (0 : ℚ) < 2 ^ exponent := zpow_pos two_pos _
  have least : -1074 ≤ exponent := canonical.least
  have greatest : exponent ≤ 971 := canonical.greatest
  have bits : (Nat.log2 significand : Int) < 53 := by
    refine exponent_le low ?_
    exact_mod_cast canonical.fits
  have below : (2 : ℚ) ^ ((Nat.log2 significand : Int) + exponent) ≤
      significand * 2 ^ exponent := by
    rw [zpow_add₀ two_ne_zero]
    exact mul_le_mul_of_nonneg_right low unit.le
  have above : (significand : ℚ) * 2 ^ exponent <
      2 ^ ((Nat.log2 significand : Int) + exponent + 1) := by
    rw [add_right_comm, zpow_add₀ two_ne_zero]
    exact mul_lt_mul_of_pos_right high unit
  rw [← Fraction.value_ofBinary] at below above ⊢
  refine pointOf_spec (Fraction.ofBinary_den_pos _ _) ?_ ?_
  · have same : ((Nat.log2 significand : Int) + exponent) * 30103 / 100000 - 1 - 1 =
        ((Nat.log2 significand : Int) + exponent) * 30103 / 100000 - 2 := by omega
    rw [same]
    exact (estimate_low (by omega) (by omega)).trans below
  · have same : ((Nat.log2 significand : Int) + exponent) * 30103 / 100000 - 1 + (6 : Nat) =
        ((Nat.log2 significand : Int) + exponent) * 30103 / 100000 + 5 := by omega
    rw [same]
    exact above.trans_le (estimate_high (by omega) (by omega))

/-! ## Decimals of some length -/

variable {value : Fraction} {point : Int} {count n : Nat}

/-- What is found with some number of digits is a neighbour of the number and is rounded to it. -/
theorem withDigits_spec (found : withDigits significand exponent value point count = some n) :
    (n = value.floorDiv (Fraction.ofDecimal 1 (point - count)) ∨
      n = value.floorDiv (Fraction.ofDecimal 1 (point - count)) + 1) ∧
    roundsTo significand exponent (Fraction.ofDecimal n (point - count)) = true := by
  unfold withDigits at found
  dsimp only at found
  generalize value.floorDiv (Fraction.ofDecimal 1 (point - count)) = below at found
  split at found
  · next both =>
    rw [Bool.and_eq_true] at both
    have either : n = below ∨ n = below + 1 := by
      repeat' split at found
      all_goals
        cases found
        simp
    rcases either with rfl | rfl
    · exact ⟨Or.inl rfl, both.1⟩
    · exact ⟨Or.inr rfl, both.2⟩
  split at found
  · next fits =>
    cases found
    exact ⟨Or.inl rfl, fits⟩
  split at found
  · next fits =>
    cases found
    exact ⟨Or.inr rfl, fits⟩
  · cases found

/-- Something is found when a neighbour is rounded to the number. -/
theorem withDigits_isSome
    (fits : roundsTo significand exponent (Fraction.ofDecimal
        (value.floorDiv (Fraction.ofDecimal 1 (point - count))) (point - count)) = true ∨
      roundsTo significand exponent (Fraction.ofDecimal
        (value.floorDiv (Fraction.ofDecimal 1 (point - count)) + 1) (point - count)) = true) :
    (withDigits significand exponent value point count).isSome = true := by
  unfold withDigits
  dsimp only
  repeat' split
  all_goals first
    | rfl
    | simp_all

theorem around_of_lt {q : ℚ} (low : lowest significand exponent < q / 2 ^ exponent)
    (high : q / 2 ^ exponent < significand + 1 / 2) : Around significand exponent q := by
  unfold Around
  split
  · exact ⟨low.le, high.le⟩
  · exact ⟨low, high⟩

/-- The neighbours of a number on the grid of some number of digits. -/
theorem neighbours {value : ℚ} {below count : Nat} {point : Int} (hasPoint : HasPoint value point)
    (low : below * (10 : ℚ) ^ (point - count) ≤ value)
    (high : value < (below + 1) * (10 : ℚ) ^ (point - count)) (some : 0 < count) :
    10 ^ (count - 1) ≤ below ∧ below + 1 ≤ 10 ^ count := by
  have unit : (0 : ℚ) < 10 ^ (point - count) := ten_pow_pos _
  obtain ⟨before, rfl⟩ := Nat.exists_eq_add_one.mpr some
  constructor
  · have least : (10 : ℚ) ^ (point - 1) = 10 ^ before * 10 ^ (point - (before + 1 : Nat)) := by
      rw [← zpow_natCast, ← ten_zpow_add]
      congr 1
      push_cast
      ring
    have less : (10 : ℚ) ^ before < below + 1 := by
      refine lt_of_mul_lt_mul_right ?_ unit.le
      rw [← least]
      exact hasPoint.1.trans_lt high
    have less' : 10 ^ before < below + 1 := by exact_mod_cast less
    exact Nat.lt_succ_iff.mp less'
  · have most : (10 : ℚ) ^ point = 10 ^ (before + 1) * 10 ^ (point - (before + 1 : Nat)) := by
      rw [← zpow_natCast, ← ten_zpow_add]
      congr 1
      ring
    have less : (below : ℚ) < 10 ^ (before + 1) := by
      refine lt_of_mul_lt_mul_right ?_ unit.le
      rw [← most]
      exact low.trans_lt hasPoint.2
    exact_mod_cast less

/-! ## Seventeen digits -/

/-- With seventeen digits a neighbour is around the number: the nearer one is at most half a unit of
the last digit away, and that is less than the way to each midpoint. -/
theorem around_seventeen (canonical : Canonical significand exponent) {point : Int} {below : Nat}
    (hasPoint : HasPoint (significand * 2 ^ exponent) point)
    (low : below * (10 : ℚ) ^ (point - 17) ≤ significand * 2 ^ exponent)
    (high : (significand : ℚ) * 2 ^ exponent < (below + 1) * 10 ^ (point - 17)) :
    Around significand exponent (below * 10 ^ (point - 17)) ∨
      Around significand exponent ((below + 1) * 10 ^ (point - 17)) := by
  have unit : (0 : ℚ) < 2 ^ exponent := zpow_pos two_pos _
  obtain ⟨width, scaled⟩ : ∃ width : ℚ, (10 : ℚ) ^ (point - 17) = width * 2 ^ exponent :=
    ⟨10 ^ (point - 17) / 2 ^ exponent, (div_mul_cancel₀ _ unit.ne').symm⟩
  have long : width * 10 ^ 16 ≤ significand := by
    refine le_of_mul_le_mul_right ?_ unit
    have same : point - 1 = point - 17 + (16 : Nat) := by omega
    calc width * 10 ^ 16 * 2 ^ exponent = 10 ^ (point - 17) * 10 ^ 16 := by rw [scaled]; ring
      _ = 10 ^ (point - 1) := by rw [same, ten_zpow_add, zpow_natCast]
      _ ≤ significand * 2 ^ exponent := hasPoint.1
  rw [scaled, ← mul_assoc] at low high
  have low' := le_of_mul_le_mul_right low unit
  have high' := lt_of_mul_lt_mul_right high unit.le
  have size : (significand : ℚ) ≤ 2 ^ 53 := by exact_mod_cast canonical.fits.le
  have positive : 0 < width := by nlinarith
  have narrow : width * 10 ^ 16 ≤ 2 ^ 53 := long.trans size
  norm_num at narrow
  -- half the width of the grid is less than the way down, also where that way is shorter
  have down : lowest significand exponent < significand - width / 2 := by
    unfold lowest
    split
    · next edge =>
      have power : (significand : ℚ) = 2 ^ 52 := by
        rw [edge.1]
        norm_cast
      rw [power] at long
      norm_num at long
      linarith
    · linarith
  rw [scaled, ← mul_assoc, ← mul_assoc]
  by_cases nearer : (significand : ℚ) - below * width ≤ width / 2
  · left
    refine around_of_lt ?_ ?_
    · rw [mul_div_cancel_right₀ _ unit.ne']
      linarith
    · rw [mul_div_cancel_right₀ _ unit.ne']
      linarith
  · right
    refine around_of_lt ?_ ?_
    · rw [mul_div_cancel_right₀ _ unit.ne']
      linarith
    · rw [mul_div_cancel_right₀ _ unit.ne']
      linarith

/-! ## The shortest decimal -/

theorem ofDecimal_one_num_pos (power : Int) : 0 < (Fraction.ofDecimal 1 power).num := by
  unfold Fraction.ofDecimal
  split
  · exact Nat.mul_pos Nat.one_pos (Nat.pow_pos (by omega))
  · exact Nat.one_pos

/-- The neighbours of a number on a grid lie on both of its sides. -/
theorem floorDiv_bounds {value : Fraction} (some : 0 < value.den) (power : Int) :
    value.floorDiv (Fraction.ofDecimal 1 power) * (10 : ℚ) ^ power ≤ value.value ∧
      value.value < (value.floorDiv (Fraction.ofDecimal 1 power) + 1) * (10 : ℚ) ^ power := by
  have both := Fraction.floorDiv_spec some (ofDecimal_one_num_pos power) (ofDecimal_den_pos 1 power)
  rwa [Fraction.value_ofDecimal, Nat.cast_one, one_mul] at both

theorem length_toDigits {n count : Nat} (low : 10 ^ (count - 1) ≤ n) (high : n < 10 ^ count)
    (some : 0 < count) : (Nat.toDigits 10 n).length = count := by
  refine Nat.le_antisymm ((Nat.length_toDigits_le_iff (by omega) some).mpr high) ?_
  by_contra short
  have places : 0 < (Nat.toDigits 10 n).length := List.length_pos_of_ne_nil Nat.toDigits_ne_nil
  have less : n < 10 ^ (count - 1) :=
    (Nat.length_toDigits_le_iff (by omega) (by omega)).mp (by omega)
  omega

/-- A one with zeros is a one that has one place more before its point. -/
theorem value_one (point : Int) (count : Nat) :
    (⟨1, point + 1⟩ : Decimal).value = (10 ^ count : Nat) * 10 ^ (point - count) := by
  have one : (Nat.toDigits 10 1).length = 1 := rfl
  rw [Decimal.value]
  dsimp only
  rw [one]
  push_cast
  rw [one_mul, add_sub_cancel_right, ← zpow_natCast, ← ten_zpow_add, add_sub_cancel]

/-- The shortest decimal of a number of the format is rounded to it. -/
theorem around_shortest (canonical : Canonical significand exponent) (positive : 0 < significand) :
    Around significand exponent (shortest significand exponent).value := by
  have hasPoint := hasPoint_of_canonical canonical positive
  unfold shortest
  dsimp only
  generalize pointOf (Fraction.ofBinary significand exponent) 6
    (((Nat.log2 significand : Int) + exponent) * 30103 / 100000 - 1) = point at hasPoint ⊢
  have bounds := floorDiv_bounds (Fraction.ofBinary_den_pos significand exponent)
  simp only [Fraction.value_ofBinary] at bounds
  split
  · next digits count found =>
    obtain ⟨i, -, inside⟩ := List.exists_of_findSome?_eq_some found
    obtain ⟨_, fits, same⟩ := Option.map_eq_some_iff.mp inside
    cases same
    obtain ⟨either, rounds⟩ := withDigits_spec fits
    rw [roundsTo_iff positive exponent (ofDecimal_den_pos _ _), Fraction.value_ofDecimal] at rounds
    obtain ⟨low, high⟩ := bounds (point - (i + 1 : Nat))
    obtain ⟨least, most⟩ := neighbours hasPoint low high (Nat.succ_pos i)
    split
    · next full =>
      have all : digits = 10 ^ (i + 1) := eq_of_beq full
      rw [value_one, ← all]
      exact rounds
    · next notFull =>
      have other : digits ≠ 10 ^ (i + 1) := fun full => notFull (beq_iff_eq.mpr full)
      have places : (Nat.toDigits 10 digits).length = i + 1 := by
        refine length_toDigits ?_ ?_ (Nat.succ_pos i)
        · rcases either with rfl | rfl
          · exact least
          · omega
        · rcases either with rfl | rfl <;> omega
      rw [Decimal.value]
      dsimp only
      rw [places]
      exact rounds
  · next none =>
    -- among the lengths that are tried is that of seventeen digits
    exfalso
    obtain ⟨low, high⟩ := bounds (point - 17)
    have tried := List.findSome?_eq_none_iff.mp none 16 (by decide)
    rw [Option.map_eq_none_iff] at tried
    have places : point - ((16 + 1 : Nat) : Int) = point - 17 := rfl
    have isSome : (withDigits significand exponent (Fraction.ofBinary significand exponent) point
        (16 + 1)).isSome = true := by
      refine withDigits_isSome ?_
      rw [places, roundsTo_iff positive exponent (ofDecimal_den_pos _ _),
        Fraction.value_ofDecimal, roundsTo_iff positive exponent (ofDecimal_den_pos _ _),
        Fraction.value_ofDecimal, Nat.cast_succ]
      exact around_seventeen canonical hasPoint low high
    rw [tried] at isSome
    cases isSome

end Double

/-! ## Written and read -/

/-- The numeral of a decimal spells the number that it is. -/
theorem spells_value {d : Decimal} (positive : 0 < d.digits) :
    ∃ (digits : Nat) (power : Int), Spells d.render digits power ∧ 0 < digits ∧
      (digits : ℚ) * 10 ^ power = d.value := by
  obtain ⟨behind, spells⟩ := spells_render positive
  obtain ⟨zeros, all⟩ := exists_toDigits d.digits
  have worth : d.digits = Text.numeral 10 (significantDigits d.digits) * 10 ^ zeros := by
    rw [← numeral_append_zeros, ← all, numeral_toDigits]
  have places : (Nat.toDigits 10 d.digits).length =
      (significantDigits d.digits).length + zeros := by
    rw [all, List.length_append, List.length_replicate]
  have some : 0 < Text.numeral 10 (significantDigits d.digits) := by
    by_contra none
    rw [Nat.eq_zero_of_not_pos none, Nat.zero_mul] at worth
    omega
  refine ⟨_, _, spells, Nat.mul_pos some (Nat.pow_pos (by omega)), ?_⟩
  rw [Decimal.value, places]
  nth_rewrite 3 [worth]
  push_cast
  rw [mul_assoc, mul_assoc, ← zpow_natCast, ← zpow_natCast, ← Double.ten_zpow_add,
    ← Double.ten_zpow_add]
  congr 2
  ring

namespace Double

/-- A number of the format is what the numeral that it is written with is rounded to. -/
theorem ofDecimal_magnitude {significand : Nat} {exponent : Int}
    (canonical : Canonical significand exponent) (negative : Bool) :
    ∃ digits power, Spells (magnitude significand exponent) digits power ∧
      ofDecimal negative digits power = .finite negative significand exponent := by
  unfold magnitude
  split
  · next none =>
    subst none
    have least : exponent = leastExponent := canonical.full.resolve_left (by decide)
    rw [least]
    exact ⟨0, -1, spells_zero, rfl⟩
  · next some =>
    have positive := Nat.pos_of_ne_zero some
    obtain ⟨digits, power, spells, worth, same⟩ := spells_value (shortest_pos positive exponent)
    refine ⟨digits, power, spells, ofDecimal_around canonical positive negative worth ?_⟩
    rw [same]
    exact around_shortest canonical positive

end Double

end MessageCatalog.Number
