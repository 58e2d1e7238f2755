/-
# JsonSelect.Document -- documents that are queried

A document is an object whose members are in order.  When it is made, all its numbers are
stored as doubles.  Lenient queries never fail; a strict document refuses expressions with
characters that begin no segment, where it is asked through `Document.tryQuery`.
-/
import JsonSelect.Json.Reading.Ordered
import JsonSelect.Path.Compile
import JsonSelect.Selection.Basic

namespace JsonSelect

set_option autoImplicit false

@[ext]
structure Document extends OrderedObject where
  strict : Bool

/-- What keeps a query from being answered. -/
inductive QueryError where
  | decode (error : Json.DecodeError)
  | unexpected (error : UnexpectedChar)

def QueryError.message : QueryError → String
  | .decode e => "decode error: " ++ e.message
  | .unexpected e => e.message

namespace Document

/-- A lenient document with the members of an object. -/
def ofMembers (object : OrderedObject) : Document := ⟨object.asDoubles, false⟩

/-- The document that a text holds. -/
def decode (input : List UInt8) : Except QueryError Document :=
  ((Json.parseObject input).map ofMembers).mapError .decode

theorem decode_eq_ok_iff {input : List UInt8} {doc : Document} :
    decode input = .ok doc ↔ ∃ object, Json.parseObject input = .ok object ∧ ofMembers object = doc :=
  mapError_eq_ok_iff.trans map_eq_ok_iff

def withStrict (doc : Document) (strict : Bool) : Document := { doc with strict := strict }

def root (doc : Document) : Json := .object doc.members

theorem root_ordered (doc : Document) : doc.root.Ordered := doc.ordered

/-! ## Queries -/

def run (doc : Document) (path : Path) : List Json := path.select doc.root

def query (doc : Document) (expression : String) : List Json := doc.run (Path.compile expression)

def tryQuery (doc : Document) (expression : String) : Except QueryError (List Json) :=
  ((Path.compileAs doc.strict expression).map doc.run).mapError .unexpected

/-! ## Matches of one kind

Matches of other kinds are passed over. -/

def strings (doc : Document) (expression : String) : List String :=
  (doc.query expression).filterMap Json.string?

def string? (doc : Document) (expression : String) : Option String :=
  (doc.query expression).findSome? Json.string?

def bools (doc : Document) (expression : String) : List Bool :=
  (doc.query expression).filterMap Json.bool?

def bool? (doc : Document) (expression : String) : Option Bool :=
  (doc.query expression).findSome? Json.bool?

def doubles (doc : Document) (expression : String) : List Double :=
  (doc.query expression).filterMap Json.double?

def double? (doc : Document) (expression : String) : Option Double :=
  (doc.query expression).findSome? Json.double?

end Document

end JsonSelect
