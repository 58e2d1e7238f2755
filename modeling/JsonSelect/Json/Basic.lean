/-
# JsonSelect.Json.Basic -- JSON values

* `Json.Ordered` holds of a value whose objects list their members by ascending key,
  as all values do that are read from text.
* `Json.asDoubles` stores every number of a value as a double.
-/
import JsonSelect.Keyed
import JsonSelect.Number.Basic

namespace JsonSelect

set_option autoImplicit false

inductive Json where
  | null
  | bool (value : Bool)
  | number (value : Number)
  | string (value : String)
  | array (items : List Json)
  | object (members : List (String × Json))

/-- The six kinds of values. -/
inductive Kind where
  | null
  | bool
  | number
  | string
  | array
  | object
  deriving DecidableEq

def Kind.name : Kind → String
  | .null => "null"
  | .bool => "bool"
  | .number => "number"
  | .string => "string"
  | .array => "array"
  | .object => "object"

namespace Json

instance : Inhabited Json := ⟨.null⟩

def kind : Json → Kind
  | .null => .null
  | .bool _ => .bool
  | .number _ => .number
  | .string _ => .string
  | .array _ => .array
  | .object _ => .object

/-! ## Reading off simple values -/

def string? : Json → Option String
  | .string s => some s
  | _ => none

def bool? : Json → Option Bool
  | .bool b => some b
  | _ => none

/-- A number of either kind, as a double. -/
def double? : Json → Option Double
  | .number n => n.toDouble?
  | _ => none

/-! ## The order of members -/

mutual

/-- Every object in the value lists its members by ascending key. -/
def Ordered : Json → Prop
  | .array items => OrderedItems items
  | .object members => Keyed.Ascending members ∧ OrderedMembers members
  | _ => True

def OrderedItems : List Json → Prop
  | [] => True
  | v :: rest => v.Ordered ∧ OrderedItems rest

def OrderedMembers : List (String × Json) → Prop
  | [] => True
  | (_, v) :: rest => v.Ordered ∧ OrderedMembers rest

end

/-! ## Numbers as doubles -/

mutual

/-- The value with every number stored as a double. -/
def asDoubles : Json → Json
  | .number n => .number n.asDouble
  | .array items => .array (asDoublesItems items)
  | .object members => .object (asDoublesMembers members)
  | other => other

def asDoublesItems : List Json → List Json
  | [] => []
  | v :: rest => v.asDoubles :: asDoublesItems rest

def asDoublesMembers : List (String × Json) → List (String × Json)
  | [] => []
  | (key, v) :: rest => (key, v.asDoubles) :: asDoublesMembers rest

end

end Json

end JsonSelect
