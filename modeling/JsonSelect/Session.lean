/-
# JsonSelect.Session -- work that goes on over several steps

A session keeps documents and compiled paths under names, one list of bindings and one
record.  A step that fails changes nothing, but for what a run of bindings stored before
it failed.
-/
import JsonSelect.Binding.Record

namespace JsonSelect

set_option autoImplicit false

structure Session where
  documents : Keyed Document
  paths : Keyed Path
  bindings : List (Binding Record)
  record : Record

inductive SessionError where
  | noDocument
  | noPath
  | query (error : QueryError)

namespace Session

def empty : Session := ⟨[], [], [], []⟩

def document? (s : Session) (slot : String) : Except SessionError Document :=
  match Keyed.get? slot s.documents with
  | some doc => .ok doc
  | none => .error .noDocument

def path? (s : Session) (name : String) : Except SessionError Path :=
  match Keyed.get? name s.paths with
  | some path => .ok path
  | none => .error .noPath

/-! ## Documents and paths -/

def store (s : Session) (slot : String) (doc : Document) : Session :=
  { s with documents := Keyed.insert slot doc s.documents }

/-- Keeps the document that a text holds. -/
def load (s : Session) (slot : String) (strict : Bool) (input : List UInt8) :
    Except SessionError (Document × Session) := do
  let doc ← (Document.decode input).mapError .query
  let doc := doc.withStrict strict
  return (doc, s.store slot doc)

def setStrict (s : Session) (slot : String) (strict : Bool) : Except SessionError Session := do
  let doc ← s.document? slot
  return s.store slot (doc.withStrict strict)

/-- Keeps the path that an expression compiles to. -/
def compile (s : Session) (name expression : String) (strict : Bool) :
    Except SessionError (Path × Session) := do
  let path ← (Path.compileAs strict expression).mapError (.query <| .unexpected ·)
  return (path, { s with paths := Keyed.insert name path s.paths })

def tryQuery (s : Session) (slot expression : String) : Except SessionError (List Json) := do
  let doc ← s.document? slot
  (doc.tryQuery expression).mapError .query

/-- The matches of a kept path in a kept document.  A missing path is noticed first. -/
def run (s : Session) (slot name : String) : Except SessionError (List Json) := do
  let path ← s.path? name
  let doc ← s.document? slot
  return doc.run path

/-! ## Bindings and the record -/

def clearBindings (s : Session) : Session := { s with bindings := [] }

def addBinding (s : Session) (b : Binding Record) : Session :=
  { s with bindings := s.bindings ++ [b] }

def clearRecord (s : Session) : Session := { s with record := [] }

/-- The session with the record that a run of its bindings left. -/
def keepRecord (s : Session) (outcome : Outcome Record) : Outcome Record × Session :=
  (outcome, { s with record := outcome.record })

def bind (s : Session) (slot : String) : Except SessionError (Outcome Record × Session) := do
  let doc ← s.document? slot
  return s.keepRecord (Binding.runAll doc s.bindings s.record)

def decodeAndBind (s : Session) (input : List UInt8) : Outcome Record × Session :=
  s.keepRecord (Binding.decodeAndRunAll input s.bindings s.record)

/-! ## Steps -/

/-- What can change a session. -/
inductive Command where
  | load (slot : String) (strict : Bool) (input : List UInt8)
  | setStrict (slot : String) (strict : Bool)
  | compile (name expression : String) (strict : Bool)
  | clearBindings
  | addBinding (b : Binding Record)
  | clearRecord
  | bind (slot : String)
  | decodeAndBind (input : List UInt8)

def step (s : Session) : Command → Except SessionError Session
  | .load slot strict input => (s.load slot strict input).map Prod.snd
  | .setStrict slot strict => s.setStrict slot strict
  | .compile name expression strict => (s.compile name expression strict).map Prod.snd
  | .clearBindings => .ok s.clearBindings
  | .addBinding b => .ok (s.addBinding b)
  | .clearRecord => .ok s.clearRecord
  | .bind slot => (s.bind slot).map Prod.snd
  | .decodeAndBind input => .ok (s.decodeAndBind input).2

/-- The session after a command.  One that fails changes nothing. -/
def next (s : Session) (c : Command) : Session :=
  match s.step c with
  | .ok changed => changed
  | .error _ => s

/-- The session after all commands. -/
def play (s : Session) (commands : List Command) : Session := commands.foldl next s

end Session

end JsonSelect
