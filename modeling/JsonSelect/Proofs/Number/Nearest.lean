/-
# JsonSelect.Proofs.Number.Nearest -- numbers that have a nearest double

* `Magnitude.exists_ofUnits?`: only a quotient of some two thousand bits is out of range.
* `Number.exists_toDouble?`: so every number of a JSON value is stored as a double, a whole
  number of 64 bits among them.
-/
import JsonSelect.Number.Basic

namespace JsonSelect

set_option autoImplicit false

namespace Magnitude

/-- A rounded significand is a magnitude unless its shift is the last one. -/
theorem exists_ofRounded? {significand shift : Nat} (room : shift < 2045)
    (upper : significand ≤ 0x20000000000000)
    (lower : shift = 0 ∨ 0x10000000000000 ≤ significand) :
    ∃ x, ofRounded? significand shift upper lower = some x := by
  unfold ofRounded?
  split
  · rw [dif_pos (Nat.succ_le_of_lt room)]
    exact ⟨_, rfl⟩
  · rw [dif_pos (Nat.le_of_lt room)]
    exact ⟨_, rfl⟩

theorem shiftFor_lt {quotient : Nat} (bits : quotient < 1 <<< 2097) : shiftFor quotient < 2045 := by
  by_cases zero : quotient = 0
  · simp [shiftFor, zero]
  · rw [Nat.one_shiftLeft] at bits
    have := (Nat.log2_lt zero).2 bits
    simp only [shiftFor]
    omega

theorem exists_ofUnits? {num den : Nat} (bits : num / den < 1 <<< 2097) :
    ∃ x, ofUnits? num den = some x := by
  unfold ofUnits?
  exact exists_ofRounded? (shiftFor_lt bits) ..

theorem exists_ofNat? {n : Nat} (fits : n ≤ 0x10000000000000000) : ∃ x, ofNat? n = some x := by
  refine exists_ofUnits? ?_
  rw [Nat.div_one, unitsPerOne]
  exact Nat.lt_of_le_of_lt (Nat.mul_le_mul_right _ fits) (by decide +kernel)

end Magnitude

theorem Double.exists_ofInt? {n : Int} (fits : FitsIn64Bits n) : ∃ x, Double.ofInt? n = some x := by
  have small : n.natAbs ≤ 0x10000000000000000 := by
    have := fits.1
    have := fits.2
    omega
  obtain ⟨m, rounded⟩ := Magnitude.exists_ofNat? small
  exact ⟨⟨decide (n < 0), m⟩, by rw [Double.ofInt?, rounded]; rfl⟩

namespace Number

theorem exists_toDouble? (n : Number) : ∃ x, n.toDouble? = some x := by
  cases n with
  | whole n fits => exact Double.exists_ofInt? fits
  | double x => exact ⟨x, rfl⟩

theorem asDouble_of_toDouble? {n : Number} {x : Double} (stored : n.toDouble? = some x) :
    n.asDouble = .double x := by
  rw [asDouble, stored]

@[simp] theorem asDouble_double (x : Double) : asDouble (.double x) = .double x := rfl

theorem asDouble_asDouble (n : Number) : n.asDouble.asDouble = n.asDouble := by
  obtain ⟨x, stored⟩ := n.exists_toDouble?
  rw [asDouble_of_toDouble? stored, asDouble_double]

end Number

end JsonSelect
