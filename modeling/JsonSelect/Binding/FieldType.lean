/-
# JsonSelect.Binding.FieldType -- the types of record fields

A field has one of five types.  `FieldType.convert` takes a JSON value into the type's
carrier if the value is of that type, and `FieldType.toJson` gives it back.
-/
import JsonSelect.Json.Basic

namespace JsonSelect

set_option autoImplicit false

inductive FieldType where
  | string
  | bool
  | number
  | integer
  | any
  deriving DecidableEq

namespace FieldType

def name : FieldType → String
  | .string => "string"
  | .bool => "bool"
  | .number => "number"
  | .integer => "integer"
  | .any => "any"

/-- The values of a field. -/
def Carrier : FieldType → Type
  | .string => String
  | .bool => Bool
  | .number => Double
  | .integer => SignedWord
  | .any => Json

/-- The value of a field, if the value is of the field's type.  A number is of integer
type if it is a whole number as a double and fits in 64 bits with its sign. -/
def convert : (type : FieldType) → Json → Option type.Carrier
  | .string, v => v.string?
  | .bool, v => v.bool?
  | .number, v => v.double?
  | .integer, v => do SignedWord.ofInt? (← (← v.double?).toInt?)
  | .any, v => some v

def toJson : (type : FieldType) → type.Carrier → Json
  | .string, s => .string s
  | .bool, b => .bool b
  | .number, x => .number (.double x)
  | .integer, w => .number (.whole w.value w.fits.fitsIn64Bits)
  | .any, v => v

end FieldType

end JsonSelect
