/-
# JsonSelect.Number.Magnitude -- the absolute value of a double

A finite double-precision number is a sign and a magnitude.  Magnitudes are
counted in units of 2^-1074, the distance between the smallest doubles, so every
one is a natural number of units and all arithmetic here is exact until the one
rounding at its end.

* `Magnitude.ofFraction?` is the magnitude nearest to a fraction, a tie going to
  the even significand; `none` says that it would be infinite.
* `Magnitude.ofDecimal?` scales a whole number by a power of ten in double
  arithmetic: every step rounds, so the result need not be the nearest magnitude.
  `Magnitude.nearestDecimal?` rounds once.
-/
namespace JsonSelect

set_option autoImplicit false

/-! ## Rounding to a whole number -/

/-- The whole number nearest to `num / den`; halfway between two, the even one. -/
def roundHalfEven (num den : Nat) : Nat :=
  let below := num / den
  let doubled := 2 * (num % den)
  if doubled < den ∨ (doubled = den ∧ below % 2 = 0) then below else below + 1

theorem div_le_roundHalfEven (num den : Nat) : num / den ≤ roundHalfEven num den := by
  simp only [roundHalfEven]; split <;> omega

theorem roundHalfEven_le_succ_div (num den : Nat) : roundHalfEven num den ≤ num / den + 1 := by
  simp only [roundHalfEven]; split <;> omega

/-! ## Magnitudes -/

/-- `significand <<< shift` units of 2^-1074.  A significand has at most 53 bits, and
exactly 53 if there is a shift, which leaves each number one representation: equal
magnitudes are equal structures. -/
structure Magnitude where
  significand : Nat
  shift : Nat
  significand_lt : significand < 0x20000000000000
  shift_le : shift ≤ 2045
  normal : shift = 0 ∨ 0x10000000000000 ≤ significand
  deriving DecidableEq

namespace Magnitude

/-- The units of 2^-1074 in one. -/
def unitsPerOne : Nat := 1 <<< 1074

def units (x : Magnitude) : Nat := x.significand <<< x.shift

def zero : Magnitude := ⟨0, 0, by decide, by decide, .inl rfl⟩

/-- A rounded significand and its shift.  A significand that was rounded up to 54 bits
has 53 at the next shift; past the last shift there is no magnitude. -/
def ofRounded? (significand shift : Nat) (upper : significand ≤ 0x20000000000000)
    (lower : shift = 0 ∨ 0x10000000000000 ≤ significand) : Option Magnitude :=
  if carry : significand = 0x20000000000000 then
    if room : shift + 1 ≤ 2045 then
      some ⟨0x10000000000000, shift + 1, by decide, room, .inr (Nat.le_refl _)⟩
    else none
  else if room : shift ≤ 2045 then
    some ⟨significand, shift, Nat.lt_of_le_of_ne upper carry, room, lower⟩
  else none

/-- The shift that leaves a quotient at most 53 bits. -/
def shiftFor (quotient : Nat) : Nat := quotient.log2 - 52

theorem shiftRight_shiftFor_lt (q : Nat) : q >>> shiftFor q < 0x20000000000000 := by
  rw [Nat.shiftRight_eq_div_pow, Nat.div_lt_iff_lt_mul (Nat.two_pow_pos _),
    show 0x20000000000000 = 2 ^ 53 from rfl, ← Nat.pow_add]
  exact Nat.lt_of_lt_of_le Nat.lt_log2_self
    (Nat.pow_le_pow_right (by decide) (by simp only [shiftFor]; omega))

theorem le_shiftRight_shiftFor (q : Nat) :
    shiftFor q = 0 ∨ 0x10000000000000 ≤ q >>> shiftFor q := by
  by_cases small : q.log2 ≤ 52
  · exact .inl (by simp only [shiftFor]; omega)
  · have positive : q ≠ 0 := fun h => small (by simp [h])
    rw [Nat.shiftRight_eq_div_pow, Nat.le_div_iff_mul_le (Nat.two_pow_pos _),
      show 0x10000000000000 = 2 ^ 52 from rfl, ← Nat.pow_add,
      show 52 + shiftFor q = q.log2 by simp only [shiftFor]; omega]
    exact .inr (Nat.log2_self_le positive)

theorem div_shiftLeft (num den shift : Nat) : num / (den <<< shift) = (num / den) >>> shift := by
  rw [Nat.shiftLeft_eq, Nat.shiftRight_eq_div_pow, Nat.div_div_eq_div_mul]

/-- The magnitude nearest to `num / den` units. -/
def ofUnits? (num den : Nat) : Option Magnitude :=
  let shift := shiftFor (num / den)
  ofRounded? (roundHalfEven num (den <<< shift)) shift
    (Nat.le_trans (roundHalfEven_le_succ_div ..)
      (div_shiftLeft num den shift ▸ Nat.succ_le_of_lt (shiftRight_shiftFor_lt _)))
    ((le_shiftRight_shiftFor _).imp_right fun h =>
      Nat.le_trans (div_shiftLeft num den shift ▸ h) (div_le_roundHalfEven ..))

/-- The magnitude nearest to `num / den`. -/
def ofFraction? (num den : Nat) : Option Magnitude := ofUnits? (num * unitsPerOne) den

/-- The magnitude nearest to `n`. -/
def ofNat? (n : Nat) : Option Magnitude := ofFraction? n 1

def mul? (x y : Magnitude) : Option Magnitude := ofUnits? (x.units * y.units) unitsPerOne

def div? (x y : Magnitude) : Option Magnitude := ofFraction? x.units y.units

/-- The whole number that a magnitude is, if it is one. -/
def toNat? (x : Magnitude) : Option Nat :=
  if x.units % unitsPerOne = 0 then some (x.units / unitsPerOne) else none

/-! ## Decimal notation -/

/-- The magnitude nearest to 10^n. -/
def powerOfTen? (n : Nat) : Option Magnitude := ofNat? (Nat.pow 10 n)

/-- The largest power of ten that is finite. -/
def largestPower : Nat := 308

/-- `x` divided `steps` times by the largest power of ten, as long as something
is left of it, and then by 10^`last`. -/
def scaleDown? (last : Nat) : Nat → Magnitude → Option Magnitude
  | 0, x => do x.div? (← powerOfTen? last)
  | steps + 1, x =>
      if x = zero then some x else do scaleDown? last steps (← x.div? (← powerOfTen? largestPower))

/-- `digits * 10 ^ exponent` in double arithmetic: `digits` is rounded, and the
product or quotient with each rounded power of ten is rounded again. -/
def ofDecimal? (digits : Nat) (exponent : Int) : Option Magnitude := do
  let start ← ofNat? digits
  match exponent with
  | .ofNat n =>
      if n ≤ largestPower then start.mul? (← powerOfTen? n)
      else if start = zero then some start
      else none
  | .negSucc n => scaleDown? (n % largestPower + 1) (n / largestPower) start

/-- The magnitude nearest to `digits * 10 ^ exponent`. -/
def nearestDecimal? (digits : Nat) : Int → Option Magnitude
  | .ofNat n => ofFraction? (digits * Nat.pow 10 n) 1
  | .negSucc n => ofFraction? digits (Nat.pow 10 (n + 1))

end Magnitude

end JsonSelect
