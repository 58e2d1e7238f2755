/-
# JsonSelect.Proofs.Number.Bits -- whole numbers of 53 significant bits

A whole number that is stored as a double is rounded to 53 significant bits, and what is left is
a whole number again.

* `RoundsToBits` says which number that is, without a word about doubles.
* `Magnitude.units_of_ofNat?`: the nearest magnitude is that number.
* `nearestWhole_mono`, `fitsSigned_nearestWhole_iff`: rounding keeps the order, so the numbers
  that still fit in 64 bits when they are rounded are an interval.
-/
import JsonSelect.Proofs.Number.Scaling

namespace JsonSelect

set_option autoImplicit false

/-- `r` is `n` rounded to 53 significant bits.  The last of them has the value `2 ^ place`, and
halfway between two of its multiples the even one is taken. -/
def RoundsToBits (n r : Int) : Prop :=
  ∃ (place : Nat) (s : Int), n.natAbs < 2 ^ (53 + place) ∧
    (place = 0 ∨ 2 ^ (52 + place) ≤ n.natAbs) ∧ r = s * (2 ^ place : Nat) ∧
      2 * (n - r).natAbs ≤ 2 ^ place ∧ (2 * (n - r).natAbs = 2 ^ place → Even s)

/-! ## Rounding a natural number -/

/-- What is rounded is at most half a multiple away, and an even multiple if it is just that. -/
theorem roundHalfEven_near {num den : Nat} (pos : 0 < den) :
    2 * ((num : Int) - roundHalfEven num den * den).natAbs ≤ den ∧
      (2 * ((num : Int) - roundHalfEven num den * den).natAbs = den →
        roundHalfEven num den % 2 = 0) := by
  have whole := Nat.div_add_mod' num den
  have part := Nat.mod_lt num pos
  simp only [roundHalfEven]
  split
  · rw [← Nat.cast_mul]
    omega
  · have next : (num / den + 1) * den = num / den * den + den := Nat.succ_mul _ _
    rw [← Nat.cast_mul, next]
    omega

namespace Magnitude

/-- `n` rounded to 53 significant bits. -/
def wholeNearest (n : Nat) : Nat := roundHalfEven n (2 ^ shiftFor n) * 2 ^ shiftFor n

theorem wholeNearest_eq (n : Nat) :
    wholeNearest n = roundedSignificand n 1 * 2 ^ shiftFor (n / 1) := by
  rw [wholeNearest, roundedSignificand, Nat.div_one, Nat.shiftLeft_eq, Nat.one_mul]

theorem wholeNearest_mono {m n : Nat} (le : m ≤ n) : wholeNearest m ≤ wholeNearest n := by
  rw [wholeNearest_eq, wholeNearest_eq]
  exact roundedSignificand_mul_mono le

theorem roundsToBits_wholeNearest (n : Nat) : RoundsToBits n (wholeNearest n : Nat) := by
  obtain ⟨upper, lower⟩ := shiftFor_eq_iff.1 (Eq.refl (shiftFor n))
  obtain ⟨near, even⟩ := @roundHalfEven_near n _ (Nat.two_pow_pos (shiftFor n))
  refine ⟨shiftFor n, roundHalfEven n (2 ^ shiftFor n), upper, lower, ?_, ?_, ?_⟩
  · rw [wholeNearest]
    push_cast
    rfl
  · rw [wholeNearest, Nat.cast_mul]
    exact near
  · rw [wholeNearest, Nat.cast_mul]
    intro half
    exact Int.even_iff.2 (by exact_mod_cast even half)

/-- The units in one are a power of two. -/
theorem exists_unitsPerOne_eq : ∃ k, unitsPerOne = 2 ^ k := by
  have each (t : Nat) : ∃ k, 1 <<< t = 2 ^ k := ⟨t, Nat.one_shiftLeft t⟩
  exact each 1074

theorem wholeNearest_of_lt {n : Nat} (small : n < 2 ^ 53) : wholeNearest n = n := by
  have unshifted : shiftFor n = 0 := shiftFor_eq_iff.2 ⟨small, .inl rfl⟩
  have near := (@roundHalfEven_near n 1 Nat.one_pos).1
  rw [wholeNearest, unshifted, pow_zero, Nat.mul_one]
  omega

/-- Where no bit is missing, more bits behind the last one are all shifted out. -/
theorem shiftFor_mul_two_pow {n : Nat} (long : 2 ^ 53 ≤ n) (k : Nat) :
    shiftFor (n * 2 ^ k) = shiftFor n + k := by
  obtain ⟨upper, lower⟩ := shiftFor_eq_iff.1 (Eq.refl (shiftFor n))
  have lower : 2 ^ (52 + shiftFor n) ≤ n := by
    rcases lower with unshifted | lower
    · rw [unshifted]
      omega
    · exact lower
  rw [shiftFor_eq_iff, ← Nat.add_assoc, ← Nat.add_assoc, Nat.pow_add,
    Nat.pow_add 2 (52 + shiftFor n)]
  exact ⟨Nat.mul_lt_mul_of_pos_right upper (Nat.two_pow_pos k), .inr (Nat.mul_le_mul_right _ lower)⟩

/-- The magnitude nearest to a whole number is the number rounded to 53 bits. -/
theorem units_of_ofNat? {n : Nat} {x : Magnitude} (found : ofNat? n = some x) :
    x.units = wholeNearest n * unitsPerOne := by
  by_cases small : n < 2 ^ 53
  · rw [wholeNearest_of_lt small]
    exact units_of_exists_units found (exists_units_eq small)
  · obtain ⟨k, one⟩ := exists_unitsPerOne_eq
    have shift : shiftFor (n * 2 ^ k / 1) = shiftFor n + k := by
      rw [Nat.div_one, shiftFor_mul_two_pow (Nat.le_of_not_lt small)]
    have significand : roundedSignificand (n * 2 ^ k) 1 = roundHalfEven n (2 ^ shiftFor n) := by
      rw [roundedSignificand, shift, Nat.shiftLeft_eq, Nat.one_mul, Nat.pow_add,
        roundHalfEven_mul_right _ _ (Nat.two_pow_pos k)]
    rw [ofNat?, ofFraction?, one] at found
    rw [(units_of_ofUnits? found).1, significand, shift, one, wholeNearest, Nat.pow_add,
      Nat.mul_assoc]

theorem toNat?_of_ofNat? {n : Nat} {x : Magnitude} (found : ofNat? n = some x) :
    x.toNat? = some (wholeNearest n) := by
  rw [toNat?, units_of_ofNat? found, Nat.mul_mod_left, if_pos rfl,
    Nat.mul_div_cancel _ unitsPerOne_pos]

end Magnitude

/-! ## Rounding a whole number -/

/-- `n` rounded to 53 significant bits. -/
def nearestWhole (n : Int) : Int :=
  if n < 0 then -(Magnitude.wholeNearest n.natAbs : Nat)
  else (Magnitude.wholeNearest n.natAbs : Nat)

theorem nearestWhole_natCast (n : Nat) : nearestWhole n = (Magnitude.wholeNearest n : Nat) := by
  rw [nearestWhole, if_neg (by omega), Int.natAbs_natCast]

theorem nearestWhole_neg (n : Nat) : nearestWhole (-n) = -(Magnitude.wholeNearest n : Nat) := by
  rcases Nat.eq_zero_or_pos n with rfl | pos
  · decide
  · rw [nearestWhole, if_pos (by omega), Int.natAbs_neg, Int.natAbs_natCast]

theorem RoundsToBits.neg {n r : Int} (rounds : RoundsToBits n r) : RoundsToBits (-n) (-r) := by
  obtain ⟨place, s, upper, lower, rfl, near, even⟩ := rounds
  have distance : (-n - -(s * (2 ^ place : Nat))).natAbs = (n - s * (2 ^ place : Nat)).natAbs := by
    omega
  refine ⟨place, -s, ?_, ?_, (neg_mul s _).symm, ?_, ?_⟩
  · rwa [Int.natAbs_neg]
  · rwa [Int.natAbs_neg]
  · rwa [distance]
  · rw [distance]
    exact fun half => (even half).neg

theorem roundsToBits_nearestWhole (n : Int) : RoundsToBits n (nearestWhole n) := by
  rcases Int.eq_nat_or_neg n with ⟨m, rfl | rfl⟩
  · rw [nearestWhole_natCast]
    exact Magnitude.roundsToBits_wholeNearest m
  · rw [nearestWhole_neg]
    exact (Magnitude.roundsToBits_wholeNearest m).neg

/-- Of two multiples that are both next to a number the smaller one is not even. -/
theorem not_lt_of_near {n s t : Int} {step : Nat} (pos : 0 < step)
    (near : 2 * (n - s * step).natAbs ≤ step) (near' : 2 * (n - t * step).natAbs ≤ step)
    (even : 2 * (n - s * step).natAbs = step → Even s)
    (even' : 2 * (n - t * step).natAbs = step → Even t) : ¬ s < t := by
  intro less
  have apart : (s + 1) * step ≤ t * step :=
    Int.mul_le_mul_of_nonneg_right less (Int.natCast_nonneg step)
  rw [add_mul, one_mul] at apart
  have next : t * step = (s + 1) * step := by
    rw [add_mul, one_mul]
    omega
  have next : t = s + 1 := Int.eq_of_mul_eq_mul_right (by omega) next
  have odd := even' (by omega)
  rw [next, Int.even_add_one] at odd
  exact odd (even (by omega))

/-- There is no other number that it is rounded to. -/
theorem RoundsToBits.unique {n q r : Int} (left : RoundsToBits n q) (right : RoundsToBits n r) :
    q = r := by
  obtain ⟨place, s, upper, lower, rfl, near, even⟩ := left
  obtain ⟨place', t, upper', lower', rfl, near', even'⟩ := right
  have same : place = place' :=
    (Magnitude.shiftFor_eq_iff.2 ⟨upper, lower⟩).symm.trans
      (Magnitude.shiftFor_eq_iff.2 ⟨upper', lower'⟩)
  subst same
  have pos := Nat.two_pow_pos place
  have notLess := not_lt_of_near pos near near' even even'
  have notMore := not_lt_of_near pos near' near even' even
  rw [show s = t by omega]

theorem roundsToBits_iff {n r : Int} : RoundsToBits n r ↔ r = nearestWhole n := by
  constructor
  · exact fun rounds => rounds.unique (roundsToBits_nearestWhole n)
  · rintro rfl
    exact roundsToBits_nearestWhole n

/-- Rounding keeps the order. -/
theorem nearestWhole_mono {m n : Int} (le : m ≤ n) : nearestWhole m ≤ nearestWhole n := by
  unfold nearestWhole
  split <;> split
  · have := @Magnitude.wholeNearest_mono n.natAbs m.natAbs (by omega)
    omega
  · omega
  · omega
  · have := @Magnitude.wholeNearest_mono m.natAbs n.natAbs (by omega)
    omega

theorem RoundsToBits.mono {m n q r : Int} (left : RoundsToBits m q) (right : RoundsToBits n r)
    (le : m ≤ n) : q ≤ r := by
  rw [roundsToBits_iff.1 left, roundsToBits_iff.1 right]
  exact nearestWhole_mono le

/-- Numbers of 53 bits stay as they are, and so does the next one. -/
theorem roundsToBits_self {n : Int} (few : n.natAbs ≤ 2 ^ 53) : RoundsToBits n n := by
  by_cases small : n.natAbs < 2 ^ 53
  · exact ⟨0, n, small, .inl rfl, by simp, by simp, by simp⟩
  · have next : RoundsToBits (2 ^ 53) (2 ^ 53) :=
      ⟨1, 2 ^ 52, by decide, .inr (by decide), by decide, by decide, by decide⟩
    rcases (by omega : n = 2 ^ 53 ∨ n = -2 ^ 53) with rfl | rfl
    · exact next
    · exact next.neg

/-! ## What fits -/

/-- A number fits in 64 bits with its sign when it is rounded, from the tie that goes up to
-2^63 to just before the tie that goes up to 2^63. -/
theorem fitsSigned_nearestWhole_iff {n : Int} :
    FitsSigned (nearestWhole n) ↔ -2 ^ 63 - 1024 ≤ n ∧ n ≤ 2 ^ 63 - 513 := by
  have least : nearestWhole (-2 ^ 63 - 1024) = -2 ^ 63 := by decide +kernel
  have below : nearestWhole (-2 ^ 63 - 1025) = -2 ^ 63 - 2048 := by decide +kernel
  have largest : nearestWhole (2 ^ 63 - 513) = 2 ^ 63 - 1024 := by decide +kernel
  have above : nearestWhole (2 ^ 63 - 512) = 2 ^ 63 := by decide +kernel
  unfold FitsSigned
  constructor
  · rintro ⟨lower, upper⟩
    constructor
    · apply Int.not_lt.1
      intro less
      have := @nearestWhole_mono n (-2 ^ 63 - 1025) (by omega)
      omega
    · apply Int.not_lt.1
      intro more
      have := @nearestWhole_mono (2 ^ 63 - 512) n (by omega)
      omega
  · rintro ⟨lower, upper⟩
    have := nearestWhole_mono lower
    have := nearestWhole_mono upper
    omega

/-! ## Doubles -/

/-- The double nearest to a whole number is that number rounded to 53 bits. -/
theorem Double.toInt?_of_ofInt? {n : Int} {x : Double} (found : Double.ofInt? n = some x) :
    x.toInt? = some (nearestWhole n) := by
  obtain ⟨m, nearest, rfl⟩ := Option.map_eq_some_iff.1 found
  rw [toInt?, Magnitude.toNat?_of_ofNat? nearest, nearestWhole]
  simp

end JsonSelect
