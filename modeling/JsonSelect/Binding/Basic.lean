/-
# JsonSelect.Binding.Basic -- filling records from documents

A binding names a field, the path that feeds it and how its value is stored in a record.
A field of one value takes the first match; a field of many takes all of them and fails
if one does not convert.

* `Binding.resolve` decides from the document alone whether a binding succeeds and what
  it stores.
* `Binding.runAll` runs bindings in order and stops at the first that fails; what was
  stored before stays.
-/
import JsonSelect.Binding.FieldType
import JsonSelect.Document

namespace JsonSelect

set_option autoImplicit false

inductive BindError where
  | noMatch (field path : String)
  | wrongKind (field : String) (expected : FieldType) (actual : Kind)
  | query (error : QueryError)

def BindError.message : BindError → String
  | .noMatch field path => field ++ " - path " ++ path ++ " matched nothing"
  | .wrongKind field expected actual =>
      field ++ " - value of type " ++ actual.name ++ " is not assignable to type " ++ expected.name
  | .query e => e.message

/-- How many matches a field takes, what they are converted to and how it is stored. -/
inductive Target (ρ : Type) where
  | one (type : FieldType) (store : type.Carrier → ρ → ρ)
  | many (type : FieldType) (store : List type.Carrier → ρ → ρ)

structure Binding (ρ : Type) where
  field : String
  path : String
  target : Target ρ

/-- What a run leaves: the record, and the error that ended it, if one did. -/
structure Outcome (ρ : Type) where
  record : ρ
  failure : Option BindError

namespace Binding

variable {ρ : Type}

def convert (field : String) (type : FieldType) (v : Json) : Except BindError type.Carrier :=
  match type.convert v with
  | some x => .ok x
  | none => .error (.wrongKind field type v.kind)

def convertAll (field : String) (type : FieldType) :
    List Json → Except BindError (List type.Carrier)
  | [] => .ok []
  | v :: rest => do
      let x ← convert field type v
      let more ← convertAll field type rest
      return x :: more

/-- What the matches make of the record. -/
def storing (b : Binding ρ) (found : List Json) : Except BindError (ρ → ρ) :=
  match b.target with
  | .one type store =>
      match found with
      | [] => .error (.noMatch b.field b.path)
      | v :: _ => (convert b.field type v).map store
  | .many type store => (convertAll b.field type found).map store

/-- What the binding makes of a record. -/
def resolve (doc : Document) (b : Binding ρ) : Except BindError (ρ → ρ) := do
  let found ← (doc.tryQuery b.path).mapError .query
  b.storing found

/-- Runs bindings in order up to the first that fails. -/
def runAll (doc : Document) : List (Binding ρ) → ρ → Outcome ρ
  | [], record => ⟨record, none⟩
  | b :: rest, record =>
      match b.resolve doc with
      | .ok store => runAll doc rest (store record)
      | .error e => ⟨record, some e⟩

/-- Runs bindings on the lenient document that a text holds. -/
def decodeAndRunAll (input : List UInt8) (bindings : List (Binding ρ)) (record : ρ) : Outcome ρ :=
  match Document.decode input with
  | .ok doc => runAll doc bindings record
  | .error e => ⟨record, some (.query e)⟩

end Binding

end JsonSelect
