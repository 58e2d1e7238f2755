/-
# JsonSelect.Proofs.Number.Shortest -- the shortest decimal names its magnitude

The decimals with 17 digits are so close to each other that one of them is rounded to any
magnitude: the nearest one is less than one part in 2^54 away.  So the search for the
shortest decimal always ends with one that reads back.

* `Decimal.leadingPower_bounds`: the power of ten of the leading digit.
* `Decimal.exists_onGrid?_of_fine`: a grid of 17 digits has a decimal that reads back.
* `Decimal.shortest_spec`: the shortest decimal reads back, and its digits are at most 10^17.
-/
import JsonSelect.Proofs.Number.Rounding
import JsonSelect.Proofs.Number.Text

namespace JsonSelect

set_option autoImplicit false

open Magnitude

namespace Decimal

theorem ten_zpow_pos (e : Int) : (0 : ℚ) < 10 ^ e := zpow_pos (by norm_num) e

theorem natCast_pow_ten (n : Nat) : ((Nat.pow 10 n : Nat) : ℚ) = 10 ^ n := Nat.cast_pow 10 n

theorem natCast_pow_ten_pos (n : Nat) : (0 : ℚ) < (Nat.pow 10 n : Nat) := by
  rw [natCast_pow_ten]
  positivity

theorem unitsPerOne_cast_pos : (0 : ℚ) < unitsPerOne := by exact_mod_cast unitsPerOne_pos

/-- The units of a decimal. -/
def inUnits (d : Decimal) : ℚ := d.digits * 10 ^ d.exponent * unitsPerOne

theorem inUnits_nonneg (d : Decimal) : 0 ≤ d.inUnits :=
  mul_nonneg (mul_nonneg (Nat.cast_nonneg _) (le_of_lt (ten_zpow_pos _)))
    (le_of_lt unitsPerOne_cast_pos)

theorem nearestDecimal?_eq_some_iff {digits : Nat} {exponent : Int} {x : Magnitude} :
    nearestDecimal? digits exponent = some x ↔
      RoundsTo (digits * 10 ^ exponent * unitsPerOne) x := by
  cases exponent with
  | ofNat n =>
      rw [nearestDecimal?, ofFraction?_eq_some_iff Nat.one_pos, Nat.cast_mul, natCast_pow_ten,
        Nat.cast_one, div_one, Int.ofNat_eq_natCast, zpow_natCast]
  | negSucc n =>
      have pos : 0 < Nat.pow 10 (n + 1) := Nat.pow_pos (by decide)
      rw [nearestDecimal?, ofFraction?_eq_some_iff pos, natCast_pow_ten, zpow_negSucc,
        div_eq_mul_inv]

/-- A decimal reads back if its units are rounded to the magnitude. -/
theorem readsBack_iff {d : Decimal} {x : Magnitude} : d.ReadsBack x ↔ RoundsTo d.inUnits x :=
  nearestDecimal?_eq_some_iff

variable {x : Magnitude}

/-! ## The leading digit -/

theorem units_pos (nonzero : x ≠ .zero) : 0 < x.units := Nat.pos_of_ne_zero (units_ne_zero nonzero)

/-- A number other than zero has as many figures as it has powers of ten. -/
theorem ten_pow_le_of_length_figures {n length : Nat} (pos : 0 < n)
    (counted : (figures n).length = length + 1) : 10 ^ length ≤ n ∧ n < 10 ^ (length + 1) := by
  rw [figures] at counted
  constructor
  · rcases Nat.eq_zero_or_pos length with rfl | more
    · exact pos
    · apply Nat.le_of_not_lt
      rw [← Nat.length_toDigits_le_iff (by decide) more, counted]
      omega
  · rw [← Nat.length_toDigits_le_iff (by decide) (Nat.succ_pos _), counted]

theorem ten_zpow_sub_mul (n k : Nat) :
    (10 : ℚ) ^ ((n : Int) - k) * (Nat.pow 10 k : Nat) = 10 ^ n := by
  rw [natCast_pow_ten, ← zpow_natCast, ← zpow_natCast, ← zpow_add₀ (by norm_num),
    sub_add_cancel]

/-- Where 10^-`k` is not more than the smallest magnitude it goes into every one. -/
theorem steps_pos {n k : Nat} (steps : n = x.units * Nat.pow 10 k / unitsPerOne)
    (small : unitsPerOne ≤ Nat.pow 10 k) (nonzero : x ≠ .zero) : 0 < n := by
  have more := Nat.mul_le_mul (units_pos nonzero) small
  rw [Nat.one_mul] at more
  rw [steps]
  exact Nat.div_pos more unitsPerOne_pos

/-- How often 10^-`k` goes into a magnitude has as many figures as the magnitude has powers
of ten from there. -/
theorem bounds_of_length_figures {n k length : Nat}
    (steps : n = x.units * Nat.pow 10 k / unitsPerOne) (pos : 0 < n)
    (counted : (figures n).length = length + 1) :
    (10 : ℚ) ^ ((length : Int) - k) * unitsPerOne ≤ x.units ∧
      (x.units : ℚ) < 10 ^ (((length + 1 : Nat) : Int) - k) * unitsPerOne := by
  obtain ⟨lower, upper⟩ := ten_pow_le_of_length_figures pos counted
  have scale := natCast_pow_ten_pos k
  rw [steps, Nat.le_div_iff_mul_le unitsPerOne_pos] at lower
  rw [steps, Nat.div_lt_iff_lt_mul unitsPerOne_pos] at upper
  have lower : ((10 ^ length : Nat) : ℚ) * unitsPerOne ≤ x.units * (Nat.pow 10 k : Nat) := by
    exact_mod_cast lower
  have upper : (x.units : ℚ) * (Nat.pow 10 k : Nat) < (10 ^ (length + 1) : Nat) * unitsPerOne := by
    exact_mod_cast upper
  rw [Nat.cast_pow, Nat.cast_ofNat, ← ten_zpow_sub_mul _ k, mul_right_comm] at lower upper
  exact ⟨le_of_mul_le_mul_right lower scale, lt_of_mul_lt_mul_right upper (le_of_lt scale)⟩

/-- The leading power counts from a power of ten below the smallest magnitude. -/
theorem exists_leadingPower_eq (x : Magnitude) :
    ∃ k : Nat, unitsPerOne ≤ Nat.pow 10 k ∧
      leadingPower x = (figures (x.units * Nat.pow 10 k / unitsPerOne)).length - (k + 1 : Nat) := by
  refine ⟨_, ?_, rfl⟩
  decide +kernel

/-- A magnitude is between the power of ten of its leading digit and the next one. -/
theorem leadingPower_bounds (nonzero : x ≠ .zero) :
    (10 : ℚ) ^ leadingPower x * unitsPerOne ≤ x.units ∧
      (x.units : ℚ) < 10 ^ (leadingPower x + 1) * unitsPerOne := by
  obtain ⟨k, small, counted⟩ := exists_leadingPower_eq x
  obtain ⟨n, steps⟩ : ∃ n, n = x.units * Nat.pow 10 k / unitsPerOne := ⟨_, rfl⟩
  have positive := steps_pos steps small nonzero
  obtain ⟨length, figured⟩ : ∃ length, (figures n).length = length + 1 :=
    Nat.exists_eq_add_one_of_ne_zero (Nat.ne_of_gt Nat.length_toDigits_pos)
  have power : leadingPower x = (length : Int) - k := by
    rw [counted, ← steps, figured]
    omega
  have next : leadingPower x + 1 = ((length + 1 : Nat) : Int) - k := by omega
  rw [next, power]
  exact bounds_of_length_figures steps positive figured

/-! ## The grid -/

theorem scaled_pos (x : Magnitude) (e : Int) : 0 < (scaled x e).2 := by
  cases e with
  | ofNat n => exact Nat.mul_pos unitsPerOne_pos (Nat.pow_pos (by decide))
  | negSucc n => exact unitsPerOne_pos

theorem scaled_div (x : Magnitude) (e : Int) :
    ((scaled x e).1 : ℚ) / (scaled x e).2 * (10 ^ e * unitsPerOne) = x.units := by
  have one := unitsPerOne_cast_pos
  cases e with
  | ofNat n =>
      show (x.units : ℚ) / (unitsPerOne * Nat.pow 10 n : Nat) * _ = _
      rw [Nat.cast_mul, natCast_pow_ten, Int.ofNat_eq_natCast, zpow_natCast]
      field_simp
  | negSucc n =>
      show ((x.units * Nat.pow 10 (n + 1) : Nat) : ℚ) / unitsPerOne * _ = _
      rw [Nat.cast_mul, natCast_pow_ten, zpow_negSucc]
      field_simp

/-- A decimal of the grid that is found reads back, and it is a neighbour. -/
theorem onGrid?_spec {e : Int} {d : Decimal} (found : onGrid? x e = some d) :
    d.ReadsBack x ∧ d.digits ≤ (scaled x e).1 / (scaled x e).2 + 1 := by
  simp only [onGrid?] at found
  split at found
  · rename_i below above
    cases found
    refine ⟨?_, roundHalfEven_le_succ_div _ _⟩
    have lower := div_le_roundHalfEven (scaled x e).1 (scaled x e).2
    have upper := roundHalfEven_le_succ_div (scaled x e).1 (scaled x e).2
    rcases Nat.lt_or_eq_of_le upper with less | same
    · rw [Nat.le_antisymm (Nat.le_of_lt_succ less) lower]
      exact of_decide_eq_true below
    · rw [same]
      exact of_decide_eq_true above
  · rename_i below _
    cases found
    exact ⟨of_decide_eq_true below, Nat.le_succ _⟩
  · rename_i above
    cases found
    exact ⟨of_decide_eq_true above, Nat.le_refl _⟩
  · cases found

/-- If one of the neighbours reads back, a decimal is found. -/
theorem exists_onGrid? {e : Int} {n : Nat} (reads : ReadsBack ⟨n, e⟩ x)
    (neighbour : n = (scaled x e).1 / (scaled x e).2 ∨ n = (scaled x e).1 / (scaled x e).2 + 1) :
    ∃ d, onGrid? x e = some d := by
  simp only [onGrid?]
  split
  · exact ⟨_, rfl⟩
  · exact ⟨_, rfl⟩
  · exact ⟨_, rfl⟩
  · rename_i below above
    rcases neighbour with rfl | rfl
    · exact absurd reads (of_decide_eq_false below)
    · exact absurd reads (of_decide_eq_false above)

/-- A grid whose steps are at most one part in 10^16 has a decimal that reads back. -/
theorem exists_onGrid?_of_fine {e : Int} (nonzero : x ≠ .zero)
    (fine : (10 : ℚ) ^ e * unitsPerOne * 10 ^ 16 ≤ x.units) : ∃ d, onGrid? x e = some d := by
  have positive : (0 : ℚ) < x.units := by exact_mod_cast units_pos nonzero
  have step : (0 : ℚ) < 10 ^ e * unitsPerOne := mul_pos (ten_zpow_pos e) unitsPerOne_cast_pos
  obtain ⟨n, nearest⟩ : ∃ n, roundHalfEven (scaled x e).1 (scaled x e).2 = n := ⟨_, rfl⟩
  have rounded := abs_le.1 (@abs_roundHalfEven_sub_le (scaled x e).1 _ (scaled_pos x e))
  have lower := div_le_roundHalfEven (scaled x e).1 (scaled x e).2
  have upper := roundHalfEven_le_succ_div (scaled x e).1 (scaled x e).2
  rw [nearest] at rounded lower upper
  apply exists_onGrid? _ (by omega : n = _ ∨ n = _)
  rw [readsBack_iff]
  apply roundsTo_of_near (inUnits_nonneg _)
  rw [inUnits]
  -- The nearest point of the grid is half a step away, which is one part in 2 * 10^16.
  have exact := scaled_div x e
  have distance : (n : ℚ) * 10 ^ e * unitsPerOne - x.units =
      (n - ((scaled x e).1 : ℚ) / (scaled x e).2) * (10 ^ e * unitsPerOne) := by
    rw [sub_mul, exact, mul_assoc]
  have close : |(n : ℚ) * 10 ^ e * unitsPerOne - x.units| ≤ 1 / 2 * (10 ^ e * unitsPerOne) := by
    rw [distance, abs_mul, abs_of_pos step]
    exact mul_le_mul_of_nonneg_right (abs_le.2 rounded) (le_of_lt step)
  apply lt_of_le_of_lt close
  rw [lt_div_iff₀ (by positivity)]
  linarith

/-! ## The search -/

/-- The grid of the last digit that is tried is fine enough. -/
theorem fine_of_maxDigits (nonzero : x ≠ .zero) :
    (10 : ℚ) ^ (leadingPower x - (16 : Nat)) * unitsPerOne * 10 ^ 16 ≤ x.units := by
  have lower := (leadingPower_bounds nonzero).1
  have powers : (10 : ℚ) ^ (leadingPower x - (16 : Nat)) * 10 ^ 16 = 10 ^ leadingPower x := by
    rw [← zpow_natCast, ← zpow_add₀ (by norm_num), sub_add_cancel]
  rwa [mul_right_comm, powers]

/-- Seventeen digits at most are in front of the grids that are tried. -/
theorem scaled_div_lt {e : Int} (nonzero : x ≠ .zero) (near : leadingPower x + 1 ≤ 17 + e) :
    (scaled x e).1 / (scaled x e).2 < 10 ^ 17 := by
  have step : (0 : ℚ) < 10 ^ e * unitsPerOne := mul_pos (ten_zpow_pos e) unitsPerOne_cast_pos
  have upper := (leadingPower_bounds nonzero).2
  rw [← scaled_div x e] at upper
  have powers : (10 : ℚ) ^ (leadingPower x + 1) ≤ 10 ^ 17 * 10 ^ e := by
    rw [← zpow_natCast, ← zpow_add₀ (by norm_num)]
    exact zpow_le_zpow_right₀ (by norm_num) near
  have quotient : ((scaled x e).1 : ℚ) / (scaled x e).2 < 10 ^ 17 := by
    apply lt_of_mul_lt_mul_right _ (le_of_lt step)
    apply lt_of_lt_of_le upper
    rw [← mul_assoc]
    exact mul_le_mul_of_nonneg_right powers (le_of_lt unitsPerOne_cast_pos)
  have floor : (((scaled x e).1 / (scaled x e).2 : Nat) : ℚ) < (10 ^ 17 : Nat) := by
    apply lt_of_le_of_lt Nat.cast_div_le
    exact_mod_cast quotient
  exact_mod_cast floor

/-- The shortest decimal reads back, and it has 17 digits at most or is a power of ten. -/
theorem shortest_spec (nonzero : x ≠ .zero) :
    (shortest x).ReadsBack x ∧ (shortest x).digits ≤ 10 ^ 17 := by
  simp only [shortest]
  cases found : (List.range maxDigits).findSome? fun (more : Nat) =>
      onGrid? x (leadingPower x - more) with
  | some d =>
      obtain ⟨more, member, onGrid⟩ := List.exists_of_findSome?_eq_some found
      obtain ⟨reads, digits⟩ := onGrid?_spec onGrid
      have within : more < 17 := List.mem_range.1 member
      have few : _ < 10 ^ 17 := @scaled_div_lt x (leadingPower x - more) nonzero (by omega)
      exact ⟨reads, Nat.le_trans digits few⟩
  | none =>
      obtain ⟨d, onGrid⟩ := exists_onGrid?_of_fine nonzero (fine_of_maxDigits nonzero)
      rw [List.findSome?_eq_none_iff] at found
      have none := found 16 (by decide)
      rw [onGrid] at none
      cases none

end Decimal

end JsonSelect
