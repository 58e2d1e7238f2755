/-
# JsonSelect.Proofs.Number.Rounding -- how far a quotient is rounded

Every operation on magnitudes rounds one quotient, so what is known of rounding is stated
once, for quotients of units as rational numbers.

* `Magnitude.RoundsTo`: a rational number of units and the magnitude that it is rounded to.
* `RoundsTo.abs_sub_le`: the result is half a unit of its last place away at most, which is
  half a unit of 2^-1074 or one part in 2^53 (`RoundsTo.abs_sub_le_max`).
* `Magnitude.exists_roundsTo`: below `Magnitude.overflow` there is a result.
* `Magnitude.roundsTo_of_near`: less than one part in 2^54 away from a magnitude there is no
  other result.
* `RoundsTo.mono`: a smaller number has a result, too, which is not larger.
-/
import Mathlib.Data.Nat.Cast.Order.Field
import Mathlib.Data.Rat.Floor
import Mathlib.Tactic.FieldSimp
import Mathlib.Tactic.Linarith
import Mathlib.Tactic.Positivity
import JsonSelect.Proofs.Number.Nearest

namespace JsonSelect

set_option autoImplicit false

/-! ## To a whole number -/

theorem div_congr {a b c d : Nat} (left : 0 < b) (right : 0 < d) (same : a * d = c * b) :
    a / b = c / d := by
  rw [← Nat.mul_div_mul_right a b right, same, Nat.mul_comm b d, Nat.mul_div_mul_right c d left]

theorem roundHalfEven_mul_right (num den : Nat) {c : Nat} (pos : 0 < c) :
    roundHalfEven (num * c) (den * c) = roundHalfEven num den := by
  have less : 2 * (num % den * c) < den * c ↔ 2 * (num % den) < den := by
    rw [← Nat.mul_assoc]
    exact Nat.mul_lt_mul_right pos
  have even : 2 * (num % den * c) = den * c ↔ 2 * (num % den) = den := by
    rw [← Nat.mul_assoc]
    exact Nat.mul_left_inj (Nat.ne_of_gt pos)
  simp only [roundHalfEven, Nat.mul_div_mul_right num den pos, Nat.mul_mod_mul_right, less, even]

/-- Rounding depends on the quotient only. -/
theorem roundHalfEven_congr {a b c d : Nat} (left : 0 < b) (right : 0 < d)
    (same : a * d = c * b) : roundHalfEven a b = roundHalfEven c d := by
  rw [← roundHalfEven_mul_right a b right, same, Nat.mul_comm b d,
    roundHalfEven_mul_right c d left]

theorem roundHalfEven_mono {a b den : Nat} (le : a ≤ b) :
    roundHalfEven a den ≤ roundHalfEven b den := by
  have quotients : a / den ≤ b / den := Nat.div_le_div_right le
  rcases Nat.lt_or_eq_of_le quotients with less | same
  · have upper := roundHalfEven_le_succ_div a den
    have lower := div_le_roundHalfEven b den
    omega
  · have left := Nat.div_add_mod a den
    have right := Nat.div_add_mod b den
    rw [same] at left
    simp only [roundHalfEven, same]
    split <;> split <;> omega

theorem abs_roundHalfEven_sub_le {num den : Nat} (pos : 0 < den) :
    |(roundHalfEven num den : ℚ) - num / den| ≤ 1 / 2 := by
  have positive : (0 : ℚ) < den := by exact_mod_cast pos
  have whole : (num : ℚ) = den * (num / den : Nat) + (num % den : Nat) := by
    exact_mod_cast (Nat.div_add_mod num den).symm
  have split : (num : ℚ) / den = (num / den : Nat) + (num % den : Nat) / den := by
    rw [eq_comm, ← sub_eq_zero]
    field_simp
    linarith
  have part : ((num % den : Nat) : ℚ) / den < 1 := by
    rw [div_lt_one positive]
    exact_mod_cast Nat.mod_lt num pos
  have nonneg : (0 : ℚ) ≤ ((num % den : Nat) : ℚ) / den := by positivity
  rw [split, abs_le]
  unfold roundHalfEven
  dsimp only
  split
  · rename_i down
    have half : ((num % den : Nat) : ℚ) / den ≤ 1 / 2 := by
      rw [div_le_div_iff₀ positive two_pos]
      have : num % den * 2 ≤ 1 * den := by omega
      exact_mod_cast this
    constructor <;> linarith
  · rename_i up
    have half : (1 : ℚ) / 2 ≤ ((num % den : Nat) : ℚ) / den := by
      rw [div_le_div_iff₀ two_pos positive]
      have : 1 * den ≤ num % den * 2 := by omega
      exact_mod_cast this
    push_cast
    constructor <;> linarith

/-- Less than one half away there is no other whole number. -/
theorem roundHalfEven_eq {num den n : Nat} (pos : 0 < den) (near : |(num : ℚ) / den - n| < 1 / 2) :
    roundHalfEven num den = n := by
  have rounded := abs_le.1 (@abs_roundHalfEven_sub_le num den pos)
  have close := abs_lt.1 near
  have upper : ((roundHalfEven num den : Nat) : ℚ) < (n + 1 : Nat) := by
    push_cast
    linarith
  have lower : (n : ℚ) < (roundHalfEven num den + 1 : Nat) := by
    push_cast
    linarith
  have upper := Nat.cast_lt.1 upper
  have lower := Nat.cast_lt.1 lower
  omega

namespace Magnitude

/-! ## Units -/

/-- The shift of the largest magnitudes. -/
def lastShift : Nat := 2045

theorem unitsPerOne_pos : 0 < unitsPerOne := by decide +kernel

theorem two_pow_pos (k : Nat) : (0 : ℚ) < 2 ^ k := by positivity

theorem units_eq (x : Magnitude) : x.units = x.significand * 2 ^ x.shift := Nat.shiftLeft_eq _ _

theorem units_cast (x : Magnitude) : (x.units : ℚ) = x.significand * 2 ^ x.shift := by
  rw [units_eq]
  push_cast
  rfl

theorem succ_significand_mul_le (x : Magnitude) :
    ((x.significand : ℚ) + 1) * 2 ^ x.shift ≤ 2 ^ 53 * 2 ^ x.shift := by
  apply mul_le_mul_of_nonneg_right _ (le_of_lt (two_pow_pos _))
  exact_mod_cast x.significand_lt

theorem units_lt (x : Magnitude) : x.units < 2 ^ (53 + lastShift) := by
  rw [units_eq, Nat.pow_add]
  exact Nat.mul_lt_mul_of_lt_of_le x.significand_lt (Nat.pow_le_pow_right (by decide) x.shift_le)
    (Nat.two_pow_pos _)

/-- With a larger shift there are more units. -/
theorem units_lt_of_shift_lt {x y : Magnitude} (less : x.shift < y.shift) : x.units < y.units := by
  have leading : 2 ^ 52 ≤ y.significand := y.normal.resolve_left (by omega)
  rw [units_eq, units_eq]
  calc x.significand * 2 ^ x.shift
      < 2 ^ 53 * 2 ^ x.shift := Nat.mul_lt_mul_of_pos_right x.significand_lt (Nat.two_pow_pos _)
    _ = 2 ^ 52 * 2 ^ (x.shift + 1) := by omega
    _ ≤ 2 ^ 52 * 2 ^ y.shift := Nat.mul_le_mul_left _ (Nat.pow_le_pow_right (by decide) less)
    _ ≤ y.significand * 2 ^ y.shift := Nat.mul_le_mul_right _ leading

/-- Equal numbers of units are equal magnitudes. -/
theorem eq_of_units_eq {x y : Magnitude} (same : x.units = y.units) : x = y := by
  have shifts : x.shift = y.shift := by
    rcases Nat.lt_trichotomy x.shift y.shift with less | shifts | less
    · exact absurd same (Nat.ne_of_lt (units_lt_of_shift_lt less))
    · exact shifts
    · exact absurd same (Nat.ne_of_gt (units_lt_of_shift_lt less))
  have significands : x.significand = y.significand := by
    rw [units_eq, units_eq, shifts] at same
    exact Nat.eq_of_mul_eq_mul_right (Nat.two_pow_pos _) same
  cases x
  cases y
  cases shifts
  cases significands
  rfl

/-! ## A rounded significand -/

theorem ofRounded?_congr {s t k l : Nat} {upper : s ≤ 0x20000000000000}
    {lower : k = 0 ∨ 0x10000000000000 ≤ s} {upper' : t ≤ 0x20000000000000}
    {lower' : l = 0 ∨ 0x10000000000000 ≤ t} (significands : s = t) (shifts : k = l) :
    ofRounded? s k upper lower = ofRounded? t l upper' lower' := by
  subst significands
  subst shifts
  rfl

section ofRounded?

variable {significand shift : Nat} {upper : significand ≤ 0x20000000000000}
  {lower : shift = 0 ∨ 0x10000000000000 ≤ significand} {x : Magnitude}

theorem units_of_ofRounded? (found : ofRounded? significand shift upper lower = some x) :
    x.units = significand * 2 ^ shift ∧ shift ≤ x.shift := by
  unfold ofRounded? at found
  split at found
  · rename_i carry
    split at found <;> cases found
    refine ⟨?_, Nat.le_succ _⟩
    rw [units_eq, carry]
    show 2 ^ 52 * 2 ^ (shift + 1) = 2 ^ 53 * 2 ^ shift
    omega
  · split at found <;> cases found
    exact ⟨Nat.shiftLeft_eq _ _, Nat.le_refl _⟩

/-- There is a magnitude of so many units, unless they are too many. -/
theorem exists_ofRounded?_of_lt (below : significand * 2 ^ shift < 2 ^ (53 + lastShift)) :
    ∃ x, ofRounded? significand shift upper lower = some x := by
  have room (bits : Nat) (most : 2 ^ bits ≤ significand) : bits + shift < 53 + lastShift := by
    have powers : 2 ^ (bits + shift) < 2 ^ (53 + lastShift) := by
      rw [Nat.pow_add]
      exact Nat.lt_of_le_of_lt (Nat.mul_le_mul_right _ most) below
    exact (Nat.pow_lt_pow_iff_right (by decide)).1 powers
  unfold ofRounded?
  split
  · rename_i carry
    have fits : shift + 1 ≤ 2045 := Nat.add_lt_add_iff_left.1 (room 53 (by omega))
    rw [dif_pos fits]
    exact ⟨_, rfl⟩
  · have fits : shift ≤ 2045 := by
      rcases lower with unshifted | leading
      · omega
      · have below := room 52 leading
        unfold lastShift at below
        omega
    rw [dif_pos fits]
    exact ⟨_, rfl⟩

end ofRounded?

/-! ## A rounded quotient -/

/-- What is halfway between the largest magnitude and the next number that would have its
shift. -/
def overflow : Nat := 0x3fffffffffffff <<< (lastShift - 1)

theorem overflow_add_half : overflow * 2 + 2 ^ lastShift = 2 ^ (54 + lastShift) := by
  have each (k : Nat) (shifted : 0 < k) :
      0x3fffffffffffff <<< (k - 1) * 2 + 2 ^ k = 2 ^ (54 + k) := by
    obtain ⟨j, rfl⟩ := Nat.exists_eq_add_one_of_ne_zero (Nat.ne_of_gt shifted)
    simp only [Nat.shiftLeft_eq, Nat.add_sub_cancel, Nat.pow_add]
    omega
  unfold overflow
  exact each lastShift (by decide)

theorem overflow_cast : (overflow : ℚ) = (2 ^ 53 - 1 / 2) * 2 ^ lastShift := by
  have limit : (overflow : ℚ) * 2 + 2 ^ lastShift = 2 ^ (54 + lastShift) := by
    exact_mod_cast overflow_add_half
  rw [pow_add] at limit
  linarith

section ofUnits?

variable {num den : Nat} {x : Magnitude}

/-- The significand of the quotient `num / den`, with as many bits as its shift leaves. -/
def roundedSignificand (num den : Nat) : Nat := roundHalfEven num (den <<< shiftFor (num / den))

theorem roundedSignificand_le (num den : Nat) : roundedSignificand num den ≤ 0x20000000000000 :=
  Nat.le_trans (roundHalfEven_le_succ_div ..)
    (div_shiftLeft num den _ ▸ Nat.succ_le_of_lt (shiftRight_shiftFor_lt _))

theorem le_roundedSignificand (num den : Nat) :
    shiftFor (num / den) = 0 ∨ 0x10000000000000 ≤ roundedSignificand num den :=
  (le_shiftRight_shiftFor _).imp_right fun h =>
    Nat.le_trans (div_shiftLeft num den _ ▸ h) (div_le_roundHalfEven ..)

theorem ofUnits?_eq (num den : Nat) :
    ofUnits? num den = ofRounded? (roundedSignificand num den) (shiftFor (num / den))
      (roundedSignificand_le num den) (le_roundedSignificand num den) := rfl

/-- Rounding depends on the quotient only. -/
theorem ofUnits?_congr {a b c d : Nat} (left : 0 < b) (right : 0 < d) (same : a * d = c * b) :
    ofUnits? a b = ofUnits? c d := by
  have shifts : shiftFor (a / b) = shiftFor (c / d) := by rw [div_congr left right same]
  have significands : roundedSignificand a b = roundedSignificand c d := by
    unfold roundedSignificand
    rw [shifts]
    have pow := Nat.two_pow_pos (shiftFor (c / d))
    apply roundHalfEven_congr
    · rw [Nat.shiftLeft_eq]
      exact Nat.mul_pos left pow
    · rw [Nat.shiftLeft_eq]
      exact Nat.mul_pos right pow
    · rw [Nat.shiftLeft_eq, Nat.shiftLeft_eq, ← Nat.mul_assoc, ← Nat.mul_assoc, same]
  rw [ofUnits?_eq, ofUnits?_eq]
  exact ofRounded?_congr significands shifts

theorem units_of_ofUnits? (found : ofUnits? num den = some x) :
    x.units = roundedSignificand num den * 2 ^ shiftFor (num / den) ∧
      shiftFor (num / den) ≤ x.shift := by
  rw [ofUnits?_eq] at found
  exact units_of_ofRounded? found

/-- A significand that is rounded is one half away at most. -/
theorem abs_roundedSignificand_sub_le (pos : 0 < den) :
    |(roundedSignificand num den : ℚ) * 2 ^ shiftFor (num / den) - num / den| ≤
      2 ^ shiftFor (num / den) / 2 := by
  have power := two_pow_pos (shiftFor (num / den))
  have shifted : 0 < den <<< shiftFor (num / den) := by
    rw [Nat.shiftLeft_eq]
    exact Nat.mul_pos pos (Nat.two_pow_pos _)
  have rounded := @abs_roundHalfEven_sub_le num _ shifted
  have scaled : ((roundedSignificand num den : ℚ) * 2 ^ shiftFor (num / den) - num / den) =
      ((roundedSignificand num den : ℚ) - num / (den <<< shiftFor (num / den) : Nat)) *
        2 ^ shiftFor (num / den) := by
    have positive : (den : ℚ) ≠ 0 := by exact_mod_cast Nat.ne_of_gt pos
    rw [Nat.shiftLeft_eq]
    push_cast
    field_simp
  rw [scaled, abs_mul, abs_of_pos power]
  calc _ ≤ 1 / 2 * 2 ^ shiftFor (num / den) :=
        mul_le_mul_of_nonneg_right rounded (le_of_lt power)
    _ = 2 ^ shiftFor (num / den) / 2 := by ring

/-- The result is half a unit of the last place of the quotient away at most. -/
theorem abs_units_sub_le_shiftFor (pos : 0 < den) (found : ofUnits? num den = some x) :
    |(x.units : ℚ) - num / den| ≤ 2 ^ shiftFor (num / den) / 2 := by
  have rounded := @abs_roundedSignificand_sub_le num den pos
  rw [(units_of_ofUnits? found).1]
  push_cast
  exact rounded

/-- The result is half a unit of its last place away at most. -/
theorem abs_units_sub_le (pos : 0 < den) (found : ofUnits? num den = some x) :
    |(x.units : ℚ) - num / den| ≤ 2 ^ x.shift / 2 := by
  have rounded := abs_units_sub_le_shiftFor pos found
  have powers : (2 : ℚ) ^ shiftFor (num / den) ≤ 2 ^ x.shift :=
    pow_le_pow_right₀ one_le_two (units_of_ofUnits? found).2
  linarith

/-- Where there is a shift, the quotient has 53 bits before it. -/
theorem two_pow_shiftFor_le (num den : Nat) :
    shiftFor (num / den) = 0 ∨ (2 : ℚ) ^ shiftFor (num / den) * 2 ^ 52 ≤ num / den := by
  rcases Nat.eq_zero_or_pos (shiftFor (num / den)) with unshifted | shifted
  · exact .inl unshifted
  · have nonzero : num / den ≠ 0 := by
      intro zero
      rw [zero] at shifted
      exact absurd shifted (by decide)
    have bits := Nat.log2_self_le nonzero
    rw [show (num / den).log2 = shiftFor (num / den) + 52 by simp only [shiftFor] at *; omega,
      Nat.pow_add] at bits
    refine .inr (le_trans ?_ Nat.cast_div_le)
    exact_mod_cast bits

/-- The result is half a unit or one part in 2^53 away at most. -/
theorem abs_units_sub_le_max (pos : 0 < den) (found : ofUnits? num den = some x) :
    |(x.units : ℚ) - num / den| ≤ max (1 / 2) ((num : ℚ) / den / 2 ^ 53) := by
  have rounded := abs_units_sub_le_shiftFor pos found
  rw [le_max_iff]
  rcases two_pow_shiftFor_le num den with unshifted | bits
  · left
    rwa [unshifted, pow_zero] at rounded
  · right
    rw [le_div_iff₀ (by positivity)]
    linarith

theorem shiftFor_eq_iff {q k : Nat} :
    shiftFor q = k ↔ q < 2 ^ (53 + k) ∧ (k = 0 ∨ 2 ^ (52 + k) ≤ q) := by
  rcases Nat.eq_zero_or_pos q with rfl | pos
  · have none : shiftFor 0 = 0 := rfl
    have bits := Nat.two_pow_pos (52 + k)
    have more := Nat.two_pow_pos (53 + k)
    omega
  · have upper := @Nat.log2_lt q (53 + k) (Nat.ne_of_gt pos)
    have lower := @Nat.le_log2 q (52 + k) (Nat.ne_of_gt pos)
    unfold shiftFor
    omega

theorem natCast_shiftLeft (n k : Nat) : ((n <<< k : Nat) : ℚ) = n * 2 ^ k := by
  rw [Nat.shiftLeft_eq]
  push_cast
  rfl

/-- A quotient has as many units as were found, whatever its significand is. -/
theorem ofUnits?_of_units_eq
    (same : roundedSignificand num den * 2 ^ shiftFor (num / den) = x.units) :
    ofUnits? num den = some x := by
  have below := x.units_lt
  rw [← same] at below
  obtain ⟨y, found⟩ : ∃ y, ofUnits? num den = some y := by
    rw [ofUnits?_eq]
    exact exists_ofRounded?_of_lt below
  rw [found, eq_of_units_eq ((units_of_ofUnits? found).1.trans same)]

theorem shiftFor_le_lastShift (below : (num : ℚ) / den < overflow) :
    shiftFor (num / den) ≤ lastShift := by
  rw [overflow_cast] at below
  have half := two_pow_pos lastShift
  have whole : ((num / den : Nat) : ℚ) < (2 ^ (53 + lastShift) : Nat) := by
    push_cast
    rw [pow_add]
    have floor : ((num / den : Nat) : ℚ) ≤ num / den := Nat.cast_div_le
    linarith
  apply Nat.le_of_not_lt
  intro more
  have bits := (shiftFor_eq_iff.1 (Eq.refl (shiftFor (num / den)))).2.resolve_left (by omega)
  have powers : 2 ^ (53 + lastShift) ≤ 2 ^ (52 + shiftFor (num / den)) :=
    Nat.pow_le_pow_right (by decide) (by omega)
  exact absurd (Nat.cast_lt.1 whole) (Nat.not_lt_of_le (Nat.le_trans powers bits))

/-- Below the limit a quotient has a result. -/
theorem exists_ofUnits?_of_lt (pos : 0 < den) (below : (num : ℚ) / den < overflow) :
    ∃ x, ofUnits? num den = some x := by
  rw [ofUnits?_eq]
  apply exists_ofRounded?_of_lt
  rcases Nat.lt_or_eq_of_le (shiftFor_le_lastShift below) with less | last
  · have powers : 2 ^ shiftFor (num / den) < 2 ^ lastShift :=
      Nat.pow_lt_pow_right (by decide) less
    have upper := Nat.mul_le_mul_right (2 ^ shiftFor (num / den)) (roundedSignificand_le num den)
    rw [Nat.pow_add]
    omega
  · -- The last shift has no room for a carry, and there is none below the limit.
    have rounded := abs_le.1 (@abs_roundedSignificand_sub_le num den pos)
    rw [overflow_cast] at below
    rw [last] at rounded ⊢
    have less : ((roundedSignificand num den * 2 ^ lastShift : Nat) : ℚ) <
        (2 ^ (53 + lastShift) : Nat) := by
      push_cast
      rw [pow_add]
      linarith
    exact_mod_cast less

/-- Only quotients up to the limit have a result. -/
theorem le_overflow (pos : 0 < den) (found : ofUnits? num den = some x) :
    (num : ℚ) / den ≤ overflow := by
  have rounded := abs_le.1 (abs_units_sub_le pos found)
  have significand : (x.significand : ℚ) + 1 ≤ 2 ^ 53 := by exact_mod_cast x.significand_lt
  have power : (2 : ℚ) ^ x.shift ≤ 2 ^ lastShift := pow_le_pow_right₀ one_le_two x.shift_le
  have largest :
      ((x.significand : ℚ) + 1 / 2) * 2 ^ x.shift ≤ (2 ^ 53 - 1 / 2) * 2 ^ lastShift := by
    apply mul_le_mul _ power (le_of_lt (two_pow_pos _)) (by norm_num)
    linarith
  rw [units_cast] at rounded
  rw [overflow_cast]
  linarith

/-! ## A quotient near a magnitude -/

theorem div_lt_natCast_div_add_one (pos : 0 < den) :
    (num : ℚ) / den < (num / den : Nat) + 1 := by
  have positive : (0 : ℚ) < den := by exact_mod_cast pos
  rw [div_lt_iff₀ positive, mul_comm]
  exact_mod_cast Nat.lt_mul_div_succ num pos

/-- Less than one half away there is no other significand. -/
theorem roundedSignificand_eq {n : Nat} (pos : 0 < den)
    (near : |(num : ℚ) / den - n * 2 ^ shiftFor (num / den)| < 2 ^ shiftFor (num / den) / 2) :
    roundedSignificand num den = n := by
  have power := two_pow_pos (shiftFor (num / den))
  apply roundHalfEven_eq
  · rw [Nat.shiftLeft_eq]
    exact Nat.mul_pos pos (Nat.two_pow_pos _)
  · have scaled : (num : ℚ) / (den <<< shiftFor (num / den) : Nat) - n =
        (num / den - n * 2 ^ shiftFor (num / den)) / 2 ^ shiftFor (num / den) := by
      have positive : (den : ℚ) ≠ 0 := by exact_mod_cast Nat.ne_of_gt pos
      rw [natCast_shiftLeft]
      field_simp
    rw [scaled, abs_div, abs_of_pos power, div_lt_iff₀ power]
    linarith

/-- Below a power of two units of the last place are halved, and the significand that is
rounded up to the next power has the same units. -/
theorem ofUnits?_of_near_below {k : Nat} (pos : 0 < den) (units : x.units = 2 ^ (53 + k))
    (near : |(num : ℚ) / den - x.units| < x.units / 2 ^ 54)
    (below : num / den < 2 ^ (53 + k)) : ofUnits? num den = some x := by
  have power := two_pow_pos k
  have close := abs_lt.1 near
  rw [units] at near close
  push_cast at near close
  rw [pow_add] at near close
  have shift : shiftFor (num / den) = k := by
    rw [shiftFor_eq_iff]
    refine ⟨below, .inr ?_⟩
    have least : (1 : ℚ) ≤ 2 ^ k := one_le_pow₀ one_le_two
    have floor := @div_lt_natCast_div_add_one num den pos
    have lower : ((2 ^ (52 + k) : Nat) : ℚ) ≤ (num / den : Nat) := by
      push_cast
      rw [pow_add]
      linarith
    exact Nat.cast_le.1 lower
  apply ofUnits?_of_units_eq
  rw [units, Nat.pow_add, shift]
  congr 1
  apply roundedSignificand_eq pos
  rw [shift]
  push_cast
  apply lt_of_lt_of_eq near
  ring

/-- One part in 2^54 is less than half a unit of the last place. -/
theorem units_div_lt (x : Magnitude) : (x.units : ℚ) / 2 ^ 54 < 2 ^ x.shift / 2 := by
  have largest := x.succ_significand_mul_le
  have power := two_pow_pos x.shift
  rw [units_cast]
  linarith

/-- A quotient with the bits of a magnitude that it is near has its shift. -/
theorem ofUnits?_of_near_above (pos : 0 < den)
    (near : |(num : ℚ) / den - x.units| < x.units / 2 ^ 54)
    (bits : x.shift = 0 ∨ 2 ^ (52 + x.shift) ≤ num / den) : ofUnits? num den = some x := by
  have close := abs_lt.1 near
  have half := x.units_div_lt
  have largest := x.succ_significand_mul_le
  have power := two_pow_pos x.shift
  have below : num / den < 2 ^ (53 + x.shift) := by
    have less : ((num / den : Nat) : ℚ) < (2 ^ (53 + x.shift) : Nat) := by
      have floor : ((num / den : Nat) : ℚ) ≤ num / den := Nat.cast_div_le
      rw [units_cast] at close half
      push_cast
      rw [pow_add]
      linarith
    exact_mod_cast less
  have shift : shiftFor (num / den) = x.shift := shiftFor_eq_iff.2 ⟨below, bits⟩
  apply ofUnits?_of_units_eq
  rw [shift, units_eq]
  congr 1
  apply roundedSignificand_eq pos
  rw [shift, ← units_cast]
  exact lt_trans near half

/-- Only the least significand lets a quotient near the magnitude have fewer bits. -/
theorem significand_eq_of_near (pos : 0 < den)
    (near : |(num : ℚ) / den - x.units| < x.units / 2 ^ 54) (shifted : x.shift ≠ 0)
    (below : num / den < 2 ^ (52 + x.shift)) : x.significand = 2 ^ 52 := by
  have close := abs_lt.1 near
  have half := x.units_div_lt
  have upper : (num : ℚ) / den < 2 ^ 52 * 2 ^ x.shift := by
    have succ : ((num / den + 1 : Nat) : ℚ) ≤ (2 ^ (52 + x.shift) : Nat) := by
      exact_mod_cast below
    have floor := @div_lt_natCast_div_add_one num den pos
    push_cast at succ
    rw [pow_add] at succ
    linarith
  apply Nat.le_antisymm _ (x.normal.resolve_left shifted)
  apply Nat.le_of_not_lt
  intro more
  have more : (2 : ℚ) ^ 52 + 1 ≤ x.significand := by exact_mod_cast more
  have product := mul_le_mul_of_nonneg_right more (le_of_lt (two_pow_pos x.shift))
  rw [units_cast] at close half
  linarith

/-- A quotient that is less than one part in 2^54 away from a magnitude is rounded to it. -/
theorem ofUnits?_of_near (pos : 0 < den)
    (near : |(num : ℚ) / den - x.units| < x.units / 2 ^ 54) : ofUnits? num den = some x := by
  by_cases bits : x.shift = 0 ∨ 2 ^ (52 + x.shift) ≤ num / den
  · exact ofUnits?_of_near_above pos near bits
  · obtain ⟨shifted, below⟩ := not_or.1 bits
    have below := Nat.lt_of_not_le below
    have least := significand_eq_of_near pos near shifted below
    obtain ⟨k, next⟩ := Nat.exists_eq_add_one_of_ne_zero shifted
    rw [next, show 52 + (k + 1) = 53 + k by omega] at below
    apply ofUnits?_of_near_below pos _ near below
    rw [units_eq, least, next, ← Nat.pow_add]
    congr 1
    omega

/-! ## Smaller quotients -/

theorem shiftFor_mono {p q : Nat} (le : p ≤ q) : shiftFor p ≤ shiftFor q := by
  apply Nat.le_of_not_lt
  intro less
  have upper := (shiftFor_eq_iff.1 (Eq.refl (shiftFor q))).1
  have lower := (shiftFor_eq_iff.1 (Eq.refl (shiftFor p))).2.resolve_left (by omega)
  have powers : 2 ^ (53 + shiftFor q) ≤ 2 ^ (52 + shiftFor p) :=
    Nat.pow_le_pow_right (by decide) (by omega)
  omega

/-- A smaller numerator is not rounded to more. -/
theorem roundedSignificand_mul_mono {a b : Nat} (le : a ≤ b) :
    roundedSignificand a den * 2 ^ shiftFor (a / den) ≤
      roundedSignificand b den * 2 ^ shiftFor (b / den) := by
  rcases Nat.lt_or_eq_of_le (shiftFor_mono (@Nat.div_le_div_right a b den le)) with less | same
  · have leading := (le_roundedSignificand b den).resolve_left (by omega)
    calc roundedSignificand a den * 2 ^ shiftFor (a / den)
        ≤ 2 ^ 53 * 2 ^ shiftFor (a / den) :=
          Nat.mul_le_mul_right _ (roundedSignificand_le a den)
      _ = 2 ^ 52 * 2 ^ (shiftFor (a / den) + 1) := by omega
      _ ≤ 2 ^ 52 * 2 ^ shiftFor (b / den) :=
          Nat.mul_le_mul_left _ (Nat.pow_le_pow_right (by decide) less)
      _ ≤ roundedSignificand b den * 2 ^ shiftFor (b / den) := Nat.mul_le_mul_right _ leading
  · unfold roundedSignificand
    rw [same]
    exact Nat.mul_le_mul_right _ (roundHalfEven_mono le)

/-- A smaller numerator has a result, too, and it is not larger. -/
theorem ofUnits?_mono {a b : Nat} {y : Magnitude} (le : a ≤ b) (found : ofUnits? b den = some y) :
    ∃ x, ofUnits? a den = some x ∧ x.units ≤ y.units := by
  have units : roundedSignificand a den * 2 ^ shiftFor (a / den) ≤ y.units := by
    rw [(units_of_ofUnits? found).1]
    exact roundedSignificand_mul_mono le
  obtain ⟨x, rounded⟩ : ∃ x, ofUnits? a den = some x := by
    rw [ofUnits?_eq]
    exact exists_ofRounded?_of_lt (Nat.lt_of_le_of_lt units y.units_lt)
  refine ⟨x, rounded, ?_⟩
  rwa [(units_of_ofUnits? rounded).1]

end ofUnits?

/-! ## Rational numbers of units -/

/-- The magnitude that a rational number of units is rounded to. -/
def RoundsTo (q : ℚ) (x : Magnitude) : Prop :=
  ∃ num den : Nat, 0 < den ∧ q = num / den ∧ ofUnits? num den = some x

theorem ofUnits?_eq_some_iff {num den : Nat} {x : Magnitude} (pos : 0 < den) :
    ofUnits? num den = some x ↔ RoundsTo (num / den) x := by
  constructor
  · intro found
    exact ⟨num, den, pos, rfl, found⟩
  · rintro ⟨a, b, left, same, found⟩
    have product : num * b = a * den := by
      have numerator : (den : ℚ) ≠ 0 := by exact_mod_cast Nat.ne_of_gt pos
      have denominator : (b : ℚ) ≠ 0 := by exact_mod_cast Nat.ne_of_gt left
      rw [div_eq_div_iff numerator denominator] at same
      exact_mod_cast same
    rw [ofUnits?_congr pos left product, found]

theorem exists_eq_div {q : ℚ} (nonneg : 0 ≤ q) : ∃ num den : Nat, 0 < den ∧ q = num / den := by
  refine ⟨q.num.toNat, q.den, q.den_pos, ?_⟩
  have numerator : ((q.num.toNat : Int) : ℚ) = q.num := by
    rw [Int.toNat_of_nonneg (Rat.num_nonneg.2 nonneg)]
  rw [← Int.cast_natCast, numerator, Rat.num_div_den]

section RoundsTo

variable {q r : ℚ} {x y : Magnitude}

theorem RoundsTo.nonneg (rounds : RoundsTo q x) : 0 ≤ q := by
  obtain ⟨num, den, -, rfl, -⟩ := rounds
  positivity

theorem RoundsTo.unique (left : RoundsTo q x) (right : RoundsTo q y) : x = y := by
  obtain ⟨num, den, pos, rfl, found⟩ := left
  rw [(ofUnits?_eq_some_iff pos).2 right] at found
  exact (Option.some.inj found).symm

/-- The result is half a unit of its last place away at most. -/
theorem RoundsTo.abs_sub_le (rounds : RoundsTo q x) : |(x.units : ℚ) - q| ≤ 2 ^ x.shift / 2 := by
  obtain ⟨num, den, pos, rfl, found⟩ := rounds
  exact abs_units_sub_le pos found

/-- The result is half a unit or one part in 2^53 away at most. -/
theorem RoundsTo.abs_sub_le_max (rounds : RoundsTo q x) :
    |(x.units : ℚ) - q| ≤ max (1 / 2) (q / 2 ^ 53) := by
  obtain ⟨num, den, pos, rfl, found⟩ := rounds
  exact abs_units_sub_le_max pos found

theorem RoundsTo.le_overflow (rounds : RoundsTo q x) : q ≤ overflow := by
  obtain ⟨num, den, pos, rfl, found⟩ := rounds
  exact Magnitude.le_overflow pos found

theorem exists_roundsTo (nonneg : 0 ≤ q) (below : q < overflow) : ∃ x, RoundsTo q x := by
  obtain ⟨num, den, pos, rfl⟩ := exists_eq_div nonneg
  obtain ⟨x, found⟩ := exists_ofUnits?_of_lt pos below
  exact ⟨x, (ofUnits?_eq_some_iff pos).1 found⟩

/-- Less than one part in 2^54 away from a magnitude there is no other result. -/
theorem roundsTo_of_near (nonneg : 0 ≤ q) (near : |q - x.units| < x.units / 2 ^ 54) :
    RoundsTo q x := by
  obtain ⟨num, den, pos, rfl⟩ := exists_eq_div nonneg
  exact (ofUnits?_eq_some_iff pos).1 (ofUnits?_of_near pos near)

/-- A smaller number has a result, too, and it is not larger. -/
theorem RoundsTo.mono (rounds : RoundsTo r y) (nonneg : 0 ≤ q) (le : q ≤ r) :
    ∃ x, RoundsTo q x ∧ x.units ≤ y.units := by
  obtain ⟨a, b, left, rfl⟩ := exists_eq_div nonneg
  obtain ⟨c, d, right, rfl, found⟩ := rounds
  have numerator : (0 : ℚ) < b := by exact_mod_cast left
  have denominator : (0 : ℚ) < d := by exact_mod_cast right
  have products : a * d ≤ c * b := by
    rw [div_le_div_iff₀ numerator denominator] at le
    exact_mod_cast le
  rw [← ofUnits?_congr (Nat.mul_pos left right) right
    (show c * b * d = c * (b * d) by rw [Nat.mul_assoc])] at found
  obtain ⟨x, smaller, units⟩ := ofUnits?_mono products found
  rw [ofUnits?_congr (Nat.mul_pos left right) left
    (show a * d * b = a * (b * d) by rw [Nat.mul_assoc, Nat.mul_comm d b])] at smaller
  exact ⟨x, (ofUnits?_eq_some_iff left).1 smaller, units⟩

end RoundsTo

/-! ## Operations -/

section operations

variable {x y z : Magnitude}

theorem ofFraction?_eq_some_iff {num den : Nat} (pos : 0 < den) :
    ofFraction? num den = some x ↔ RoundsTo (num / den * unitsPerOne) x := by
  rw [ofFraction?, ofUnits?_eq_some_iff pos, Nat.cast_mul, mul_div_right_comm]

theorem ofNat?_eq_some_iff {n : Nat} : ofNat? n = some x ↔ RoundsTo (n * unitsPerOne) x := by
  rw [ofNat?, ofFraction?_eq_some_iff Nat.one_pos, Nat.cast_one, div_one]

theorem mul?_eq_some_iff :
    x.mul? y = some z ↔ RoundsTo (x.units * y.units / unitsPerOne) z := by
  rw [mul?, ofUnits?_eq_some_iff unitsPerOne_pos, Nat.cast_mul]

theorem div?_eq_some_iff (pos : 0 < y.units) :
    x.div? y = some z ↔ RoundsTo (x.units / y.units * unitsPerOne) z := by
  rw [div?, ofFraction?_eq_some_iff pos]

end operations

end Magnitude

end JsonSelect
