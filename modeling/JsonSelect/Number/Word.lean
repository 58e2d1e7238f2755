/-
# JsonSelect.Number.Word -- whole numbers of 64 bits

Whole numbers of JSON values fit in 64 bits, with a sign if they are negative and
without one if they are not; positions and fields of whole numbers fit with their sign.
-/
namespace JsonSelect

set_option autoImplicit false

/-- Fits in 64 bits of which one is the sign. -/
def FitsSigned (n : Int) : Prop := -0x8000000000000000 ≤ n ∧ n < 0x8000000000000000

/-- Fits in 64 bits, of which a negative number needs one for the sign. -/
def FitsIn64Bits (n : Int) : Prop := -0x8000000000000000 ≤ n ∧ n < 0x10000000000000000

instance (n : Int) : Decidable (FitsSigned n) := inferInstanceAs (Decidable (_ ∧ _))

instance (n : Int) : Decidable (FitsIn64Bits n) := inferInstanceAs (Decidable (_ ∧ _))

theorem FitsSigned.fitsIn64Bits {n : Int} (h : FitsSigned n) : FitsIn64Bits n :=
  ⟨h.1, Int.lt_trans h.2 (by decide)⟩

/-- A whole number with its sign. -/
structure SignedWord where
  value : Int
  fits : FitsSigned value
  deriving DecidableEq

def SignedWord.ofInt? (n : Int) : Option SignedWord :=
  if fits : FitsSigned n then some ⟨n, fits⟩ else none

end JsonSelect
