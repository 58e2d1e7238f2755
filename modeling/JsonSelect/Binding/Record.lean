/-
# JsonSelect.Binding.Record -- records of named entries

The entries of a record are texts of JSON values by the names of its fields.  A binding
made by `Binding.one` or `Binding.many` overwrites the entry of its field and no other.
-/
import JsonSelect.Binding.Basic
import JsonSelect.Json.Rendering

namespace JsonSelect

set_option autoImplicit false

/-- The text of a value, or the texts of several. -/
inductive Entry where
  | one (text : String)
  | many (texts : List String)
  deriving DecidableEq

abbrev Record := Keyed Entry

namespace Binding

/-- Keeps the text of the first match under the name of the field. -/
def one (field path : String) (type : FieldType) : Binding Record :=
  ⟨field, path, .one type fun x => Keyed.insert field (.one (type.toJson x).compact)⟩

/-- Keeps the texts of all matches under the name of the field. -/
def many (field path : String) (type : FieldType) : Binding Record :=
  let texts (xs : List type.Carrier) : List String := xs.map fun x => (type.toJson x).compact
  ⟨field, path, .many type fun xs => Keyed.insert field (.many (texts xs))⟩

end Binding

end JsonSelect
