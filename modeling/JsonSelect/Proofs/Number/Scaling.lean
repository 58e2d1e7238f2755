/-
# JsonSelect.Proofs.Number.Scaling -- how far scaling goes from the value of a numeral

The significand, the power of ten and their product or quotient are rounded one after the
other, each by half a unit of its last place.

* `Magnitude.Within`: a distance in parts of 2^53, which products and inverses keep.
* `Magnitude.exists_scaled`: scaling rounds a number that is near the value of the numeral,
  and the value itself if the significand and the power of ten are magnitudes.
* `Magnitude.exists_rereads`: so what is shown for a magnitude is scaled to a magnitude less
  than four units of the last place away, which is the same one if the numeral is exact.
-/
import JsonSelect.Proofs.Number.Written

namespace JsonSelect

set_option autoImplicit false

namespace Magnitude

/-! ## Distances -/

/-- `q` is at most so many parts in 2^53 of `r` away from it, and the rest. -/
def Within (parts rest q r : ℚ) : Prop := |q - r| ≤ parts * (r / 2 ^ 53) + rest

section Within

variable {c d rest more q r t u : ℚ}

theorem within_self (q : ℚ) : Within 0 0 q q := by simp [Within]

theorem Within.mono (near : Within c rest q r) (nonneg : 0 ≤ r) (parts : c ≤ d)
    (others : rest ≤ more) : Within d more q r := by
  have share : 0 ≤ r / 2 ^ 53 := by positivity
  have product := mul_le_mul_of_nonneg_right parts share
  unfold Within at *
  linarith

/-- The distances add up, and a hundredth of a part is more than their product. -/
theorem Within.trans (first : Within c rest q r) (second : Within d 0 r t) (nonneg : 0 ≤ t)
    (least : 0 ≤ c) (few : c ≤ 5) (few' : d ≤ 5) : Within (c + d + 1 / 100) rest q t := by
  have share : 0 ≤ t / 2 ^ 53 := by positivity
  have far : d * (t / 2 ^ 53) ≤ 5 * (t / 2 ^ 53) := mul_le_mul_of_nonneg_right few' share
  unfold Within at first second ⊢
  have upper := (abs_le.1 second).2
  have scaled : c * (r / 2 ^ 53) ≤ c * (t / 2 ^ 53) + 1 / 100 * (t / 2 ^ 53) := by
    have step : r / 2 ^ 53 ≤ t / 2 ^ 53 + 5 / 2 ^ 53 * (t / 2 ^ 53) := by linarith
    have product := mul_le_mul_of_nonneg_left step least
    have small : c * (5 / 2 ^ 53 * (t / 2 ^ 53)) ≤ 5 * (5 / 2 ^ 53 * (t / 2 ^ 53)) :=
      mul_le_mul_of_nonneg_right few (by positivity)
    linarith
  have triangle := abs_sub_le q r t
  linarith

theorem Within.mul_right (near : Within c rest q r) (nonneg : 0 ≤ t) :
    Within c (rest * t) (q * t) (r * t) := by
  have product := mul_le_mul_of_nonneg_right near nonneg
  unfold Within
  rw [← sub_mul, abs_mul, abs_of_nonneg nonneg]
  linarith

/-- The distances of two factors add up in their product. -/
theorem Within.mul (left : Within c rest q r) (right : Within d 0 t u) (nonneg : 0 ≤ r)
    (nonneg' : 0 ≤ t) (nonneg'' : 0 ≤ u) (least : 0 ≤ c) (few : c ≤ 5) (few' : d ≤ 5) :
    Within (c + d + 1 / 100) (rest * t) (q * t) (r * u) := by
  have second := right.mul_right nonneg
  rw [zero_mul, mul_comm t, mul_comm u] at second
  exact (left.mul_right nonneg').trans second (mul_nonneg nonneg nonneg'') least few few'

/-- What is near a positive number is more than half of it. -/
theorem Within.half_lt (near : Within d 0 q r) (pos : 0 < r) (few : d ≤ 5) : r / 2 < q := by
  have share : 0 < r / 2 ^ 53 := by positivity
  have far : d * (r / 2 ^ 53) ≤ 5 * (r / 2 ^ 53) :=
    mul_le_mul_of_nonneg_right few (le_of_lt share)
  have lower := (abs_le.1 near).1
  linarith

theorem Within.inv (near : Within d 0 q r) (pos : 0 < r) (least : 0 ≤ d) (few : d ≤ 5) :
    Within (d + 1 / 100) 0 q⁻¹ r⁻¹ := by
  have positive : 0 < q := lt_trans (half_pos pos) (near.half_lt pos few)
  have lower := (abs_le.1 near).1
  have far : d * (r / 2 ^ 53) ≤ 5 * (r / 2 ^ 53) :=
    mul_le_mul_of_nonneg_right few (by positivity)
  have difference : q⁻¹ - r⁻¹ = (r - q) / (q * r) := by
    have left := ne_of_gt positive
    have right := ne_of_gt pos
    field_simp
  unfold Within at near ⊢
  rw [difference, abs_div, abs_sub_comm, abs_of_pos (mul_pos positive pos),
    div_le_iff₀ (mul_pos positive pos)]
  have ratio : (d + 1 / 100) * (r⁻¹ / 2 ^ 53) * (q * r) = (d + 1 / 100) * (q / 2 ^ 53) := by
    have right := ne_of_gt pos
    field_simp
  have product : d * (r / 2 ^ 53) ≤ d * (q / 2 ^ 53 + 5 / 2 ^ 53 * (r / 2 ^ 53)) := by
    apply mul_le_mul_of_nonneg_left _ least
    linarith
  have small : d * (5 / 2 ^ 53 * (r / 2 ^ 53)) ≤ 5 * (5 / 2 ^ 53 * (r / 2 ^ 53)) :=
    mul_le_mul_of_nonneg_right few (by positivity)
  have half : r / 2 < q := by linarith
  rw [add_zero, ratio]
  linarith

theorem RoundsTo.within {x : Magnitude} (rounds : RoundsTo q x) : Within 1 (1 / 2) x.units q := by
  have nonneg := rounds.nonneg
  have share : 0 ≤ q / 2 ^ 53 := by positivity
  apply le_trans rounds.abs_sub_le_max
  apply max_le <;> linarith

/-- A number of 52 bits of units is less than one part away from what it is rounded to. -/
theorem RoundsTo.within_of_le {x : Magnitude} (rounds : RoundsTo q x) (large : 2 ^ 52 ≤ q) :
    Within 1 0 x.units q := by
  apply le_trans rounds.abs_sub_le_max
  apply max_le <;> linarith

end Within

/-! ## Significands and powers of ten -/

/-- The number that a magnitude is. -/
def value (x : Magnitude) : ℚ := x.units / unitsPerOne

section operations

variable {x y z : Magnitude}

theorem mul?_eq_some_iff_value : x.mul? y = some z ↔ RoundsTo (x.units * y.value) z := by
  rw [mul?_eq_some_iff, value, mul_div_assoc]

theorem div?_eq_some_iff_value (pos : 0 < y.units) :
    x.div? y = some z ↔ RoundsTo (x.units * y.value⁻¹) z := by
  rw [div?_eq_some_iff pos, value, inv_div, div_mul_eq_mul_div, mul_div_assoc]

end operations

theorem roundsTo_units {x : Magnitude} (nonzero : x ≠ .zero) : RoundsTo x.units x := by
  have positive : (0 : ℚ) < x.units := by exact_mod_cast Decimal.units_pos nonzero
  apply roundsTo_of_near (le_of_lt positive)
  rw [sub_self, abs_zero]
  positivity

theorem two_pow_le_unitsPerOne : 2 ^ 52 ≤ unitsPerOne := by decide +kernel

theorem two_pow_le_mul_unitsPerOne {n : Nat} (pos : 0 < n) : (2 : ℚ) ^ 52 ≤ n * unitsPerOne := by
  have product := Nat.mul_le_mul (Nat.succ_le_of_lt pos) two_pow_le_unitsPerOne
  rw [Nat.one_mul] at product
  exact_mod_cast product

/-- A whole number that is a magnitude is not rounded. -/
theorem units_of_exists_units {n : Nat} {x : Magnitude} (found : ofNat? n = some x)
    (exact : ∃ m : Magnitude, m.units = n * unitsPerOne) : x.units = n * unitsPerOne := by
  rcases Nat.eq_zero_or_pos n with rfl | pos
  · cases found.symm.trans (ofFraction?_zero 1)
    exact (Nat.zero_mul unitsPerOne).symm
  · obtain ⟨m, units⟩ := exact
    have nonzero : m ≠ .zero := by
      rintro rfl
      exact absurd units.symm (Nat.ne_of_gt (Nat.mul_pos pos unitsPerOne_pos))
    have exact := roundsTo_units nonzero
    rw [units, Nat.cast_mul] at exact
    rw [(ofNat?_eq_some_iff.1 found).unique exact, units]

/-- A significand of 17 digits is rounded by one part at most. -/
theorem exists_ofNat?_within {s : Nat} (pos : 0 < s) (few : s ≤ 10 ^ 17) :
    ∃ x, ofNat? s = some x ∧ Within 1 0 x.units (s * unitsPerOne) ∧
      ((∃ m : Magnitude, m.units = s * unitsPerOne) → x.units = s * unitsPerOne) := by
  obtain ⟨x, found⟩ := exists_ofNat? (Nat.le_trans few (by decide))
  have rounds := ofNat?_eq_some_iff.1 found
  exact ⟨x, found, rounds.within_of_le (two_pow_le_mul_unitsPerOne pos),
    units_of_exists_units found⟩

theorem value_nonneg (x : Magnitude) : 0 ≤ x.value := by
  unfold value
  positivity

theorem units_pos_of_value_pos {x : Magnitude} (pos : 0 < x.value) : 0 < x.units := by
  apply Nat.pos_of_ne_zero
  intro none
  rw [value, none, Nat.cast_zero, zero_div] at pos
  exact absurd pos (lt_irrefl 0)

theorem value_eq {x : Magnitude} {n : Nat} (units : x.units = n * unitsPerOne) : x.value = n := by
  rw [value, units, Nat.cast_mul, mul_div_cancel_right₀ _ (ne_of_gt Decimal.unitsPerOne_cast_pos)]

/-- A power of ten is rounded by one part at most, and the first ones are magnitudes. -/
theorem exists_powerOfTen? {n : Nat} (within : n ≤ largestPower) :
    ∃ x, powerOfTen? n = some x ∧ 0 < x.units ∧ Within 1 0 x.value (10 ^ n) ∧
      (n ≤ 22 → x.value = 10 ^ n) := by
  have positive := Decimal.unitsPerOne_cast_pos
  obtain ⟨x, rounds⟩ : ∃ x, RoundsTo ((Nat.pow 10 n : Nat) * unitsPerOne) x := by
    obtain ⟨k, known, least⟩ : ∃ k, k = largestPower ∧ Nat.pow 10 k * unitsPerOne < overflow := by
      refine ⟨_, rfl, ?_⟩
      decide +kernel
    rw [← known] at within
    have powers : Nat.pow 10 n * unitsPerOne ≤ Nat.pow 10 k * unitsPerOne :=
      Nat.mul_le_mul_right _ (Nat.pow_le_pow_right (by decide) within)
    have below : Nat.pow 10 n * unitsPerOne < overflow := Nat.lt_of_le_of_lt powers least
    have below : ((Nat.pow 10 n : Nat) : ℚ) * unitsPerOne < overflow := by exact_mod_cast below
    exact exists_roundsTo (mul_nonneg (Nat.cast_nonneg _) (le_of_lt positive)) below
  have near : Within 1 0 x.value (10 ^ n) := by
    have whole := rounds.within_of_le (two_pow_le_mul_unitsPerOne (Nat.pow_pos (by decide)))
    have scaled := whole.mul_right (inv_nonneg.2 (le_of_lt positive))
    rw [zero_mul, mul_inv_cancel_right₀ (ne_of_gt positive), Decimal.natCast_pow_ten] at scaled
    exact scaled
  refine ⟨x, ofNat?_eq_some_iff.2 rounds, ?_, near, ?_⟩
  · have scale : (0 : ℚ) < 10 ^ n := by positivity
    apply units_pos_of_value_pos
    exact lt_trans (half_pos scale) (near.half_lt scale (by norm_num))
  · intro few
    have first : ∀ k < 23, (powerOfTen? k).map units = some (Nat.pow 10 k * unitsPerOne) := by
      decide +kernel
    have units := first n (Nat.lt_succ_of_le few)
    rw [powerOfTen?, ofNat?_eq_some_iff.2 rounds] at units
    rw [value_eq (Option.some.inj units), Decimal.natCast_pow_ten]

theorem within_of_sub_le {a b : Nat} (above : (a - b) * (5 * 2 ^ 53) ≤ b)
    (below : (b - a) * (5 * 2 ^ 53) ≤ b) : Within (1 / 5) 0 a b := by
  unfold Within
  rcases Nat.le_total a b with le | le
  · have below : (((b - a : Nat) : ℚ)) * (5 * 2 ^ 53) ≤ b := by exact_mod_cast below
    rw [Nat.cast_sub le] at below
    rw [abs_sub_comm, abs_of_nonneg (sub_nonneg.2 (Nat.cast_le.2 le))]
    linarith
  · have above : (((a - b : Nat) : ℚ)) * (5 * 2 ^ 53) ≤ b := by exact_mod_cast above
    rw [Nat.cast_sub le] at above
    rw [abs_of_nonneg (sub_nonneg.2 (Nat.cast_le.2 le))]
    linarith

/-- The largest power of ten is rounded by less than a fifth of a part. -/
theorem exists_powerOfTen?_largestPower :
    ∃ x, powerOfTen? largestPower = some x ∧ Within (1 / 5) 0 x.value (10 ^ largestPower) := by
  have positive := Decimal.unitsPerOne_cast_pos
  obtain ⟨k, n, known, power, above, below⟩ : ∃ k n, k = largestPower ∧
      n = Nat.pow 10 k * unitsPerOne ∧
        (powerOfTen? k).any (fun x => (x.units - n) * (5 * 2 ^ 53) ≤ n) = true ∧
          (powerOfTen? k).any (fun x => (n - x.units) * (5 * 2 ^ 53) ≤ n) = true := by
    refine ⟨_, _, rfl, rfl, ?_⟩
    decide +kernel
  obtain ⟨x, found, -⟩ := exists_powerOfTen? (Nat.le_of_eq known)
  rw [found, Option.any_some, decide_eq_true_eq] at above below
  rw [← known]
  have near := (within_of_sub_le above below).mul_right (inv_nonneg.2 (le_of_lt positive))
  rw [zero_mul, power, Nat.cast_mul, mul_inv_cancel_right₀ (ne_of_gt positive),
    Decimal.natCast_pow_ten] at near
  exact ⟨x, found, near⟩

/-! ## Scaled significands -/

/-- The significand is scaled to what `q` is rounded to.  `q` is near the value, and it is
the value if nothing was rounded before. -/
structure Scaled (digits : Nat) (power : Int) (q : ℚ) : Prop where
  rounds (x : Magnitude) : ofDecimal? digits power = some x ↔ RoundsTo q x
  near : Within (9 / 4) (1 / 10) q (digits * 10 ^ power * unitsPerOne)
  exact : (∃ m : Magnitude, m.units = digits * unitsPerOne) → power.natAbs ≤ 22 →
    q = digits * 10 ^ power * unitsPerOne

section Scaled

variable {s n : Nat}

theorem inUnits_pos (pos : 0 < s) : (0 : ℚ) < s * unitsPerOne :=
  mul_pos (by exact_mod_cast pos) Decimal.unitsPerOne_cast_pos

theorem ofDecimal?_negSucc {x : Magnitude} (start : ofNat? s = some x) :
    ofDecimal? s (Int.negSucc n) = scaleDown? (n % largestPower + 1) (n / largestPower) x := by
  rw [ofDecimal?, start, Option.bind_eq_bind, Option.bind_some]

theorem scaleDown?_zero {x y : Magnitude} (power : powerOfTen? n = some y) :
    scaleDown? n 0 x = x.div? y := by
  rw [scaleDown?, power, Option.bind_eq_bind, Option.bind_some]

theorem scaleDown?_succ {x y z : Magnitude} {steps : Nat} (nonzero : x ≠ .zero)
    (power : powerOfTen? largestPower = some y) (divided : x.div? y = some z) :
    scaleDown? n (steps + 1) x = scaleDown? n steps z := by
  rw [scaleDown?, if_neg nonzero, power, Option.bind_eq_bind, Option.bind_some, divided,
    Option.bind_some]

/-- A product is scaled by one rounded power of ten. -/
theorem exists_scaled_of_nonneg (pos : 0 < s) (few : s ≤ 10 ^ 17) (within : n ≤ largestPower) :
    ∃ q, Scaled s n q := by
  obtain ⟨x, start, near, exact⟩ := exists_ofNat?_within pos few
  obtain ⟨y, power, -, near', exact'⟩ := exists_powerOfTen? within
  have value : (s : ℚ) * 10 ^ (n : Int) * unitsPerOne = s * unitsPerOne * 10 ^ n := by
    rw [zpow_natCast, mul_right_comm]
  have whole := inUnits_pos pos
  have scale : (0 : ℚ) < 10 ^ n := by positivity
  refine ⟨x.units * y.value, ⟨fun z => ?_, ?_, fun fits small => ?_⟩⟩
  · rw [← mul?_eq_some_iff_value]
    simp [ofDecimal?, start, within, power]
  · have product := near.mul near' (le_of_lt whole) y.value_nonneg (le_of_lt scale) zero_le_one
      (by norm_num) (by norm_num)
    rw [value]
    apply product.mono (le_of_lt (mul_pos whole scale)) <;> norm_num
  · rw [value, exact fits, exact' small, Nat.cast_mul]

/-- A quotient is scaled by one rounded power of ten as long as the power is finite. -/
theorem exists_scaled_of_lt (pos : 0 < s) (few : s ≤ 10 ^ 17) (within : n < largestPower) :
    ∃ q, Scaled s (Int.negSucc n) q := by
  obtain ⟨x, start, near, exact⟩ := exists_ofNat?_within pos few
  obtain ⟨y, power, divisor, near', exact'⟩ := exists_powerOfTen? (Nat.succ_le_of_lt within)
  have value : (s : ℚ) * 10 ^ Int.negSucc n * unitsPerOne =
      s * unitsPerOne * (10 ^ (n + 1))⁻¹ := by
    rw [zpow_negSucc, mul_right_comm]
  have whole := inUnits_pos pos
  have scale : (0 : ℚ) < 10 ^ (n + 1) := by positivity
  refine ⟨x.units * y.value⁻¹, ⟨fun z => ?_, ?_, fun fits small => ?_⟩⟩
  · rw [← div?_eq_some_iff_value divisor, ofDecimal?_negSucc start, Nat.mod_eq_of_lt within,
      Nat.div_eq_of_lt within, scaleDown?_zero power]
  · have product := near.mul (near'.inv scale zero_le_one (by norm_num)) (le_of_lt whole)
      (inv_nonneg.2 y.value_nonneg) (inv_nonneg.2 (le_of_lt scale)) zero_le_one
      (by norm_num) (by norm_num)
    rw [value]
    apply product.mono (le_of_lt (mul_pos whole (inv_pos.2 scale))) <;> norm_num
  · rw [value, exact fits, exact' small, Nat.cast_mul]

/-- Where the second power of ten is not a magnitude there are few units. -/
theorem inUnits_le_of_power_le {p : Int} (few : s ≤ 10 ^ 17) (small : p ≤ -331) :
    (s : ℚ) * 10 ^ p * unitsPerOne ≤ 10 ^ 10 := by
  obtain ⟨k, known, one⟩ : ∃ k, k = 324 ∧ unitsPerOne ≤ Nat.pow 10 k := by
    refine ⟨_, rfl, ?_⟩
    decide +kernel
  have one : (unitsPerOne : ℚ) ≤ (Nat.pow 10 k : Nat) := by exact_mod_cast one
  have digits : (s : ℚ) ≤ 10 ^ 17 := by exact_mod_cast few
  have power : (10 : ℚ) ^ p * (Nat.pow 10 k : Nat) ≤ 10 ^ (-7 : Int) := by
    rw [Decimal.natCast_pow_ten, ← zpow_natCast, ← zpow_add₀ (by norm_num)]
    exact zpow_le_zpow_right₀ (by norm_num) (by omega)
  calc (s : ℚ) * 10 ^ p * unitsPerOne
      ≤ s * 10 ^ p * (Nat.pow 10 k : Nat) :=
        mul_le_mul_of_nonneg_left one
          (mul_nonneg (Nat.cast_nonneg _) (le_of_lt (Decimal.ten_zpow_pos p)))
    _ = s * (10 ^ p * (Nat.pow 10 k : Nat)) := mul_assoc _ _ _
    _ ≤ 10 ^ 17 * 10 ^ (-7 : Int) :=
        mul_le_mul digits power
          (mul_nonneg (le_of_lt (Decimal.ten_zpow_pos p)) (Nat.cast_nonneg _)) (by norm_num)
    _ = 10 ^ 10 := by norm_num

theorem ne_zero_of_within {x : Magnitude} (pos : 0 < s)
    (near : Within 1 0 x.units (s * unitsPerOne)) : x ≠ .zero := by
  rintro rfl
  have whole := inUnits_pos pos
  have half := near.half_lt whole (by norm_num)
  have none : ((zero.units : Nat) : ℚ) = 0 := Nat.cast_zero
  linarith

/-- Divided by the largest power of ten, a significand is near the value so far. -/
theorem exists_div?_largestPower {x : Magnitude} (pos : 0 < s)
    (near : Within 1 0 x.units (s * unitsPerOne)) :
    ∃ y z, powerOfTen? largestPower = some y ∧ x.div? y = some z ∧
      Within (223 / 100) (1 / 2) z.units (s * unitsPerOne * (10 ^ largestPower)⁻¹) := by
  obtain ⟨y, power, near'⟩ := exists_powerOfTen?_largestPower
  obtain ⟨p, known⟩ : ∃ p : ℚ, p = 10 ^ largestPower := ⟨_, rfl⟩
  rw [← known] at near' ⊢
  have whole := inUnits_pos pos
  have scale : 10 ≤ p := by
    rw [known]
    exact le_self_pow₀ (by norm_num) (by decide)
  have positive : 0 < p := by linarith
  have divisor : 1 ≤ y.value := by
    have half := near'.half_lt positive (by norm_num)
    linarith
  have quotient := near.mul (near'.inv positive (by norm_num) (by norm_num)) (le_of_lt whole)
    (inv_nonneg.2 y.value_nonneg) (inv_nonneg.2 (le_of_lt positive)) zero_le_one
    (by norm_num) (by norm_num)
  obtain ⟨z, rounds⟩ : ∃ z, RoundsTo (x.units * y.value⁻¹) z := by
    obtain ⟨z, rounds, -⟩ := (roundsTo_units (ne_zero_of_within pos near)).mono
      (mul_nonneg (Nat.cast_nonneg _) (inv_nonneg.2 y.value_nonneg))
      (mul_le_of_le_one_right (Nat.cast_nonneg _) (inv_le_one_of_one_le₀ divisor))
    exact ⟨z, rounds⟩
  have units := units_pos_of_value_pos (lt_of_lt_of_le zero_lt_one divisor)
  refine ⟨y, z, power, (div?_eq_some_iff_value units).2 rounds, ?_⟩
  have target : 0 ≤ s * unitsPerOne * p⁻¹ :=
    mul_nonneg (le_of_lt whole) (inv_nonneg.2 (le_of_lt positive))
  rw [zero_mul] at quotient
  have near := rounds.within.trans quotient target zero_le_one (by norm_num) (by norm_num)
  apply near.mono target <;> norm_num

/-- Only the first steps count: either the second power of ten is a magnitude, or there are so
few units that no distance in parts matters. -/
theorem near_of_two_steps {q r v : ℚ} (first : Within (223 / 100) (1 / 2) q r) (nonneg : 0 ≤ r)
    (second : Within 1 0 v (10 ^ (n + 1))) (exact : n + 1 ≤ 22 → v = 10 ^ (n + 1))
    (small : 22 < n + 1 → r * (10 ^ (n + 1))⁻¹ ≤ 10 ^ 10) :
    Within (9 / 4) (1 / 10) (q * v⁻¹) (r * (10 ^ (n + 1))⁻¹) := by
  obtain ⟨p, known⟩ : ∃ p : ℚ, p = 10 ^ (n + 1) := ⟨_, rfl⟩
  rw [← known] at second exact small ⊢
  have scale : 10 ≤ p := by
    rw [known]
    exact le_self_pow₀ (by norm_num) (Nat.succ_ne_zero n)
  have positive : 0 < p := by linarith
  have target : 0 ≤ r * p⁻¹ := mul_nonneg nonneg (inv_nonneg.2 (le_of_lt positive))
  rcases Nat.lt_or_ge 22 (n + 1) with more | fewer
  · have least : 100 ≤ p := by
      rw [known]
      calc (100 : ℚ) = 10 ^ 2 := by norm_num
        _ ≤ 10 ^ (n + 1) := pow_le_pow_right₀ (by norm_num) (by omega)
    have half := second.half_lt positive (by norm_num)
    have inverse : v⁻¹ ≤ 50⁻¹ := inv_anti₀ (by norm_num) (by linarith)
    have product := first.mul (second.inv positive zero_le_one (by norm_num)) nonneg
      (inv_nonneg.2 (by linarith)) (inv_nonneg.2 (le_of_lt positive)) (by norm_num) (by norm_num)
      (by norm_num)
    have few := small more
    apply le_trans product
    linarith
  · rw [exact fewer]
    have inverse : p⁻¹ ≤ 10⁻¹ := inv_anti₀ (by norm_num) scale
    have product := first.mul (within_self p⁻¹) nonneg (inv_nonneg.2 (le_of_lt positive))
      (inv_nonneg.2 (le_of_lt positive)) (by norm_num) (by norm_num) (by norm_num)
    apply product.mono target
    · norm_num
    · linarith

/-- A quotient is scaled by two rounded powers of ten where one is not enough. -/
theorem exists_scaled_of_add (pos : 0 < s) (few : s ≤ 10 ^ 17) (within : n ≤ 32) :
    ∃ q, Scaled s (Int.negSucc (largestPower + n)) q := by
  obtain ⟨x, start, near, -⟩ := exists_ofNat?_within pos few
  have nonzero := ne_zero_of_within pos near
  obtain ⟨y, z, power, divided, near⟩ := exists_div?_largestPower pos near
  have room : n < largestPower := Nat.lt_of_le_of_lt within (by decide)
  obtain ⟨w, power', divisor, near', exact⟩ := exists_powerOfTen? (Nat.succ_le_of_lt room)
  have value : (s : ℚ) * 10 ^ Int.negSucc (largestPower + n) * unitsPerOne =
      s * unitsPerOne * (10 ^ largestPower)⁻¹ * (10 ^ (n + 1))⁻¹ := by
    rw [zpow_negSucc, Nat.add_assoc, pow_add, mul_inv, mul_right_comm, mul_assoc, mul_assoc,
      mul_assoc]
  have target : (0 : ℚ) ≤ s * unitsPerOne * (10 ^ largestPower)⁻¹ :=
    mul_nonneg (le_of_lt (inUnits_pos pos)) (inv_nonneg.2 (pow_nonneg (by norm_num) _))
  refine ⟨z.units * w.value⁻¹, ⟨fun m => ?_, ?_, fun _ small => ?_⟩⟩
  · rw [← div?_eq_some_iff_value divisor, ofDecimal?_negSucc start, Nat.add_mod_left,
      Nat.mod_eq_of_lt room, Nat.add_div_left _ (by decide), Nat.div_eq_of_lt room,
      scaleDown?_succ nonzero power divided, scaleDown?_zero power']
  · rw [value]
    apply near_of_two_steps near target near' exact
    intro more
    rw [← value]
    apply inUnits_le_of_power_le few
    unfold largestPower
    omega
  · unfold largestPower at small
    omega

/-- Where the value is in range so are the powers of ten that it takes. -/
theorem exists_scaled {p : Int} (pos : 0 < s) (few : s ≤ 10 ^ 17)
    (most : (s : ℚ) * 10 ^ p * unitsPerOne ≤ overflow)
    (least : 1 / 2 ≤ (s : ℚ) * 10 ^ p * unitsPerOne) : ∃ q, Scaled s p q := by
  have positive := Decimal.unitsPerOne_cast_pos
  have scale := Decimal.ten_zpow_pos p
  have upper : p ≤ 308 := by
    apply power_le
    apply le_trans _ most
    have one : (1 : ℚ) ≤ s := by exact_mod_cast pos
    exact mul_le_mul_of_nonneg_right (le_mul_of_one_le_left (le_of_lt scale) one)
      (le_of_lt positive)
  have lower : -324 ≤ p + 17 := by
    apply le_power
    apply le_trans least
    have digits : (s : ℚ) ≤ 10 ^ (17 : Int) := by exact_mod_cast few
    rw [zpow_add₀ (by norm_num), mul_comm (10 ^ p) (10 ^ (17 : Int))]
    exact mul_le_mul_of_nonneg_right (mul_le_mul_of_nonneg_right digits (le_of_lt scale))
      (le_of_lt positive)
  cases p with
  | ofNat n => exact exists_scaled_of_nonneg pos few (Int.ofNat_le.1 upper)
  | negSucc n =>
      rcases Nat.lt_or_ge n largestPower with less | more
      · exact exists_scaled_of_lt pos few less
      · obtain ⟨k, rfl⟩ := Nat.exists_eq_add_of_le more
        apply exists_scaled_of_add pos few
        unfold largestPower at lower
        omega

end Scaled

/-! ## Back to the magnitude -/

section Scaled

variable {s : Nat} {p : Int} {q : ℚ} {x y : Magnitude}

/-- What is scaled is less than three units of the last place above the magnitude. -/
theorem Scaled.le_add (scaled : Scaled s p q) (rounds : RoundsTo (s * 10 ^ p * unitsPerOne) x) :
    |q - s * 10 ^ p * unitsPerOne| ≤ 47 / 20 * 2 ^ x.shift ∧
      q ≤ (x.significand + 57 / 20) * 2 ^ x.shift := by
  have near := scaled.near
  obtain ⟨v, value⟩ : ∃ v : ℚ, v = s * 10 ^ p * unitsPerOne := ⟨_, rfl⟩
  rw [← value] at rounds near ⊢
  have one : (1 : ℚ) ≤ 2 ^ x.shift := one_le_pow₀ one_le_two
  have upper := (abs_le.1 rounds.abs_sub_le).1
  have significand := x.succ_significand_mul_le
  rw [units_cast] at upper
  have distance : |q - v| ≤ 47 / 20 * 2 ^ x.shift := by
    unfold Within at near
    linarith
  have above := (abs_le.1 distance).2
  exact ⟨distance, by linarith⟩

/-- What is scaled is rounded to a magnitude that is less than four units of the last place
away. -/
theorem Scaled.natAbs_units_sub_lt (scaled : Scaled s p q)
    (rounds : RoundsTo (s * 10 ^ p * unitsPerOne) x) (again : RoundsTo q y) :
    ((y.units : Int) - x.units).natAbs < 4 * 2 ^ x.shift := by
  obtain ⟨distance, upper⟩ := scaled.le_add rounds
  have one : (1 : ℚ) ≤ 2 ^ x.shift := one_le_pow₀ one_le_two
  have significand := x.succ_significand_mul_le
  have last : |(y.units : ℚ) - q| ≤ 101 / 100 * 2 ^ x.shift := by
    apply le_trans again.abs_sub_le_max
    apply max_le <;> linarith
  have first := abs_le.1 rounds.abs_sub_le
  have middle := abs_le.1 distance
  have last := abs_le.1 last
  have less : |(y.units : ℚ) - x.units| < 4 * 2 ^ x.shift := by
    rw [abs_lt]
    constructor <;> linarith
  have cast : ((((y.units : Int) - x.units).natAbs : Nat) : ℚ) = |(y.units : ℚ) - x.units| := by
    rw [Nat.cast_natAbs]
    push_cast
    rfl
  rw [← cast] at less
  exact_mod_cast less

/-- Below the last three magnitudes what is scaled is in range. -/
theorem Scaled.exists_ofDecimal? (scaled : Scaled s p q)
    (rounds : RoundsTo (s * 10 ^ p * unitsPerOne) x) (nonzero : x ≠ .zero)
    (lower : x.shift = lastShift → x.significand + 4 ≤ 2 ^ 53) : ∃ y, ofDecimal? s p = some y := by
  have half := rounds.half_le nonzero
  have near := (abs_le.1 scaled.near).1
  obtain ⟨-, upper⟩ := scaled.le_add rounds
  have power := two_pow_pos x.shift
  have below : q < overflow := by
    rw [overflow_cast]
    rcases Nat.lt_or_eq_of_le x.shift_le with less | last
    · have significand := x.succ_significand_mul_le
      have next : (2 : ℚ) ^ x.shift * 2 ≤ 2 ^ lastShift := by
        rw [← pow_succ]
        exact pow_le_pow_right₀ one_le_two less
      linarith
    · have significand : ((x.significand : ℚ) + 4) * 2 ^ x.shift ≤ 2 ^ 53 * 2 ^ x.shift := by
        apply mul_le_mul_of_nonneg_right _ (le_of_lt power)
        exact_mod_cast lower last
      have same : (2 : ℚ) ^ x.shift = 2 ^ lastShift := congrArg (fun k => (2 : ℚ) ^ k) last
      rw [same] at significand upper power
      linarith
  obtain ⟨y, again⟩ := exists_roundsTo (by linarith) below
  exact ⟨y, (scaled.rounds y).2 again⟩

end Scaled

/-! ## The last magnitudes -/

/-- The largest magnitude, the one below it and the next one. -/
def topmost (k : Fin 3) : Magnitude where
  significand := 0x1fffffffffffff - k
  shift := lastShift
  significand_lt := by omega
  shift_le := by decide
  normal := .inr (by omega)

theorem exists_eq_topmost {x : Magnitude} (last : x.shift = lastShift)
    (upper : 2 ^ 53 < x.significand + 4) : ∃ k, x = topmost k := by
  have less := x.significand_lt
  refine ⟨⟨0x1fffffffffffff - x.significand, by omega⟩, ?_⟩
  apply eq_of_units_eq
  rw [units_eq, units_eq, last]
  show x.significand * 2 ^ lastShift =
    (0x1fffffffffffff - (0x1fffffffffffff - x.significand)) * 2 ^ lastShift
  rw [Nat.sub_sub_self (by omega)]

/-- The last magnitudes are shown with a significand that is not rounded up past the range. -/
theorem topmost_rereads (k : Fin 3) :
    ∃ n y, (topmost k).Shows n ∧ ofDecimal? n.significand n.power = some y := by
  have each : ∀ k, (Json.readNumeral (Utf8.encode (topmost k).text)).toOption.any (fun r =>
      r.2 = [] ∧ (ofDecimal? r.1.significand r.1.power).isSome) = true := by decide +kernel
  obtain ⟨⟨n, left⟩, read, reads⟩ := (Option.any_eq_true _ _).1 (each k)
  obtain ⟨nothing, found⟩ := of_decide_eq_true reads
  obtain ⟨y, scaled⟩ := Option.isSome_iff_exists.1 found
  refine ⟨n, y, ?_, scaled⟩
  rw [Shows, toOption_eq_some_iff.1 read, show left = [] from nothing]

end Magnitude

/-! ## What is shown and read again -/

/-- The significand is a magnitude, and so is the power of ten that it is multiplied with or
divided by.  Only the result of such a numeral is rounded. -/
def Json.Numeral.Exact (n : Json.Numeral) : Prop :=
  (∃ m : Magnitude, m.units = n.significand * Magnitude.unitsPerOne) ∧ n.power.natAbs ≤ 22

namespace Magnitude

/-- Whole numbers of 53 bits are magnitudes. -/
theorem exists_units_eq {n : Nat} (few : n < 2 ^ 53) :
    ∃ m : Magnitude, m.units = n * unitsPerOne := by
  rcases Nat.eq_zero_or_pos n with rfl | pos
  · exact ⟨zero, by decide +kernel⟩
  · have bits : n.log2 ≤ 52 := Nat.le_of_lt_succ ((Nat.log2_lt (Nat.ne_of_gt pos)).2 few)
    have lower := Nat.log2_self_le (Nat.ne_of_gt pos)
    have upper := @Nat.lt_log2_self n
    obtain ⟨k, left⟩ := Nat.exists_eq_add_of_le bits
    refine ⟨⟨n * 2 ^ k, 1074 - k, ?_, by omega, .inr ?_⟩, ?_⟩
    · calc n * 2 ^ k
          < 2 ^ (n.log2 + 1) * 2 ^ k := Nat.mul_lt_mul_of_pos_right upper (Nat.two_pow_pos k)
        _ = 2 ^ 53 := by rw [← Nat.pow_add, show n.log2 + 1 + k = 53 by omega]
    · calc 2 ^ 52 = 2 ^ n.log2 * 2 ^ k := by rw [← Nat.pow_add, ← left]
        _ ≤ n * 2 ^ k := Nat.mul_le_mul_right _ lower
    · have units (t : Nat) (room : k ≤ t) : (n * 2 ^ k) <<< (t - k) = n * 1 <<< t := by
        rw [Nat.shiftLeft_eq, Nat.shiftLeft_eq, Nat.one_mul, Nat.mul_assoc, ← Nat.pow_add,
          Nat.add_sub_cancel' room]
      exact units 1074 (by omega)

end Magnitude

/-- A numeral of 53 bits with a small power of ten is exact. -/
theorem Json.Numeral.exact_of_lt {n : Json.Numeral} (few : n.significand < 2 ^ 53)
    (small : n.power.natAbs ≤ 22) : n.Exact := ⟨Magnitude.exists_units_eq few, small⟩

namespace Magnitude

/-- Every magnitude other than zero shows a numeral that is scaled. -/
theorem exists_shows_scaled {x : Magnitude} (nonzero : x ≠ .zero) :
    ∃ n q, x.Shows n ∧ n.whole = false ∧ Scaled n.significand n.power q ∧
      RoundsTo (n.significand * 10 ^ n.power * unitsPerOne) x := by
  obtain ⟨n, shows_, decimal, few, rounds⟩ := exists_shows nonzero
  have half := rounds.half_le nonzero
  have pos : 0 < n.significand := by
    apply Nat.pos_of_ne_zero
    intro none
    rw [none, Nat.cast_zero, zero_mul, zero_mul] at half
    norm_num at half
  obtain ⟨q, scaled⟩ := exists_scaled pos few rounds.le_overflow half
  exact ⟨n, q, shows_, decimal, scaled, rounds⟩

/-- **What is shown for a magnitude is scaled to a magnitude near it.**  It is always in
range and less than four units of the last place away, and it is the magnitude itself if
the numeral is exact. -/
theorem exists_rereads (x : Magnitude) :
    ∃ n y, x.Shows n ∧ n.whole = false ∧ ofDecimal? n.significand n.power = some y ∧
      ((y.units : Int) - x.units).natAbs < 4 * 2 ^ x.shift ∧ (n.Exact → y = x) := by
  by_cases nonzero : x = .zero
  · subst nonzero
    have scaled : ofDecimal? 0 (-1) = some zero := by decide +kernel
    exact ⟨_, _, shows_zero, rfl, scaled, by decide, fun _ => rfl⟩
  · obtain ⟨n, q, shows_, decimal, scaled, rounds⟩ := exists_shows_scaled nonzero
    obtain ⟨y, found⟩ : ∃ y, ofDecimal? n.significand n.power = some y := by
      by_cases upper : x.shift = lastShift ∧ 2 ^ 53 < x.significand + 4
      · obtain ⟨k, rfl⟩ := exists_eq_topmost upper.1 upper.2
        obtain ⟨m, y, same, found⟩ := topmost_rereads k
        rw [same.unique shows_] at found
        exact ⟨y, found⟩
      · apply scaled.exists_ofDecimal? rounds nonzero
        intro last
        omega
    have again := (scaled.rounds y).1 found
    refine ⟨n, y, shows_, decimal, found, scaled.natAbs_units_sub_lt rounds again, ?_⟩
    intro exact
    rw [scaled.exact exact.1 exact.2] at again
    exact again.unique rounds

end Magnitude

end JsonSelect
