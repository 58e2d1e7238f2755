/-
# JsonSelect.Number.Decimal -- the text of a double

The text of a double has the fewest digits that still name it, and among those the
digits nearest to it.

* `Decimal.shortest` tries one digit, two digits and so on.  With n digits only the
  two neighbours of the number on the grid of n-digit decimals have to be looked at:
  if any point of the grid rounds back to the number, one of them does.
* `DecimalFormat` says how digits become text, and `DecimalFormat.json` is the format of JSON
  numbers.
-/
import JsonSelect.Number.Double

namespace JsonSelect

set_option autoImplicit false

/-- `digits * 10 ^ exponent`. -/
structure Decimal where
  digits : Nat
  exponent : Int
  deriving DecidableEq

namespace Decimal

/-! ## Fewest digits -/

/-- A double has at most this many significant digits in its shortest decimal. -/
def maxDigits : Nat := 17

/-- The digits of a number in base ten, the first one first. -/
def figures (n : Nat) : List Char := Nat.toDigits 10 n

/-- The power of ten of the leading digit of a magnitude other than zero.
The smallest magnitude is above 10^-324, so the scaled number has a whole part. -/
def leadingPower (x : Magnitude) : Int :=
  (figures (x.units * Nat.pow 10 324 / Magnitude.unitsPerOne)).length - 325

/-- `x * 10 ^ -exponent` as a fraction. -/
def scaled (x : Magnitude) : Int → Nat × Nat
  | .ofNat n => (x.units, Magnitude.unitsPerOne * Nat.pow 10 n)
  | .negSucc n => (x.units * Nat.pow 10 (n + 1), Magnitude.unitsPerOne)

def ReadsBack (d : Decimal) (x : Magnitude) : Prop :=
  Magnitude.nearestDecimal? d.digits d.exponent = some x

instance (d : Decimal) (x : Magnitude) : Decidable (d.ReadsBack x) :=
  inferInstanceAs (Decidable (_ = _))

/-- The decimal nearest to `x` on the grid of multiples of 10^`exponent`, among the
two neighbours of `x` that read back as `x`. -/
def onGrid? (x : Magnitude) (exponent : Int) : Option Decimal :=
  let (num, den) := scaled x exponent
  let below : Decimal := ⟨num / den, exponent⟩
  let above : Decimal := ⟨num / den + 1, exponent⟩
  match decide (below.ReadsBack x), decide (above.ReadsBack x) with
  | true, true => some ⟨roundHalfEven num den, exponent⟩
  | true, false => some below
  | false, true => some above
  | false, false => none

/-- All digits of `x`. -/
def exact (x : Magnitude) : Decimal := ⟨x.units * Nat.pow 5 1074, -1074⟩

/-- The decimal with the fewest digits that reads back as `x`. -/
def shortest (x : Magnitude) : Decimal :=
  let leading := leadingPower x
  ((List.range maxDigits).findSome? fun (more : Nat) => onGrid? x (leading - more)).getD (exact x)

/-! ## Digits as text -/

/-- The significant digits, without zeros at the end. -/
def significant (d : Decimal) : List Char :=
  ((figures d.digits).reverse.dropWhile (· = '0')).reverse

/-- The power of ten of the first digit. -/
def scientificExponent (d : Decimal) : Int := d.exponent + (figures d.digits).length - 1

end Decimal

/-- Which powers of ten of the leading digit are written out with a point in place;
the others are written with an exponent. -/
structure DecimalFormat where
  leastPower : Int
  greatestPower : Int

namespace DecimalFormat

/-- JSON numbers are written out from 0.00001 up to below 10^16. -/
def json : DecimalFormat := ⟨-5, 15⟩

/-- A whole number with as many zeros as it needs, always with a fraction. -/
def pointAfter (count : Nat) (digits : List Char) : List Char :=
  digits.take count ++ List.replicate (count - digits.length) '0' ++ '.' ::
    (if digits.length ≤ count then ['0'] else digits.drop count)

/-- A fraction below one, `count` zeros before its first digit. -/
def pointBefore (count : Nat) (digits : List Char) : List Char :=
  '0' :: '.' :: (List.replicate count '0' ++ digits)

/-- One digit, the others behind the point, and the power of ten with its sign. -/
def withExponent (digits : List Char) (power : Int) : List Char :=
  let mantissa := match digits with
    | first :: more@(_ :: _) => first :: '.' :: more
    | _ => digits
  mantissa ++ 'e' :: (if power < 0 then '-' else '+') :: Decimal.figures power.natAbs

def decimal (format : DecimalFormat) (d : Decimal) : List Char :=
  let digits := d.significant
  let power := d.scientificExponent
  if format.leastPower ≤ power ∧ power ≤ format.greatestPower then
    match power with
    | .ofNat n => pointAfter (n + 1) digits
    | .negSucc n => pointBefore n digits
  else withExponent digits power

/-- The sign is written for the negative zero, too. -/
def double (format : DecimalFormat) (x : Double) : List Char :=
  let text := if x.magnitude = .zero then ['0', '.', '0']
    else format.decimal (.shortest x.magnitude)
  if x.negative then '-' :: text else text

end DecimalFormat

end JsonSelect
