/-
# JsonSelect.Number.Double -- finite double-precision numbers

A sign and a magnitude.  Equality of the structure tells the two zeros apart, as
their bit patterns and their texts do; `Double.Equal` is equality of the numbers,
where both zeros are zero.
-/
import JsonSelect.Number.Magnitude

namespace JsonSelect

set_option autoImplicit false

structure Double where
  negative : Bool
  magnitude : Magnitude
  deriving DecidableEq

namespace Double

/-- Equality as numbers: the zeros of both signs are equal. -/
def Equal (x y : Double) : Prop :=
  x = y ∨ x.magnitude = .zero ∧ y.magnitude = .zero

instance (x y : Double) : Decidable (x.Equal y) := inferInstanceAs (Decidable (_ ∨ _))

/-- The double nearest to a whole number, a tie going to the even significand. -/
def ofInt? (n : Int) : Option Double :=
  (Magnitude.ofNat? n.natAbs).map (⟨decide (n < 0), ·⟩)

/-- The whole number that a double is, if it is one. -/
def toInt? (x : Double) : Option Int :=
  x.magnitude.toNat?.map fun n => if x.negative then -(n : Int) else n

end Double

end JsonSelect
