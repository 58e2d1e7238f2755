/-
# JsonSelect.Number.Basic -- the numbers of a JSON value

A number is a whole number that fits in 64 bits, signed or not, or a finite double.
Which of the two it is shows in its text: `1` is whole and `1.0` a double.
-/
import JsonSelect.Number.Decimal
import JsonSelect.Number.Word

namespace JsonSelect

set_option autoImplicit false

inductive Number where
  | whole (value : Int) (fits : FitsIn64Bits value)
  | double (value : Double)
  deriving DecidableEq

namespace Number

/-- The number as a double, a whole number rounded to the nearest. -/
def toDouble? : Number → Option Double
  | .whole n _ => Double.ofInt? n
  | .double x => some x

/-- The number stored as a double. -/
def asDouble (n : Number) : Number :=
  match n.toDouble? with
  | some x => .double x
  | none => n

def wholeText (n : Int) : List Char :=
  if n < 0 then '-' :: Decimal.figures n.natAbs else Decimal.figures n.natAbs

def text : Number → List Char
  | .whole n _ => wholeText n
  | .double x => DecimalFormat.json.double x

end Number

end JsonSelect
