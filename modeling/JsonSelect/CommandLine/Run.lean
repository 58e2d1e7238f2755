/-
# JsonSelect.CommandLine.Run -- what a command answers

A query reads its document, compiles the path and selects; its matches are then made
unique, cut to the first and replaced by the default if there are none, in this order.
To explain a path no document is read.
-/
import JsonSelect.CommandLine.Arguments
import JsonSelect.Document
import JsonSelect.Selection.Matches

namespace JsonSelect

set_option autoImplicit false

/-- Where a document is read from. -/
inductive Source where
  | standardInput
  | file (name : String)

/-- Why a source cannot be read. -/
inductive SourceError where
  | notFound
  | notDirectory
  | isDirectory
  | nameTooLong
  | other (description : String) (code : Nat)

def SourceError.message : SourceError → String
  | .notFound => "No such file or directory (os error 2)"
  | .notDirectory => "Not a directory (os error 20)"
  | .isDirectory => "Is a directory (os error 21)"
  | .nameTooLong => "File name too long (os error 36)"
  | .other description code =>
      description ++ " (os error " ++ String.ofList (Decimal.figures code) ++ ")"

inductive RunError where
  | source (error : SourceError)
  | query (error : QueryError)

def RunError.message : RunError → String
  | .source e => e.message
  | .query e => e.message

namespace Arguments

def source (a : Arguments) : Source :=
  match a.file with
  | some name => .file name
  | none => .standardInput

/-- The value of a text that is JSON, and otherwise the text as a string. -/
def defaultValue (text : String) : Json :=
  match Json.parse (Utf8.bytes text) with
  | .ok v => v
  | .error _ => .string text

/-- What is shown of the matches. -/
def refine (a : Arguments) (found : List Json) : List Json :=
  let found := if a.unique then Matches.unique found else found
  let found := if a.first then Matches.first found else found
  match a.default with
  | some text => Matches.orDefault found (defaultValue text)
  | none => found

/-- The description of the path. -/
def explanation (a : Arguments) : Except RunError Json :=
  ((Path.compileAs a.strict a.path).map Path.toJson).mapError (.query <| .unexpected ·)

/-- The matches in the document of a text. -/
def selection (a : Arguments) (input : List UInt8) : Except RunError Json :=
  ((Document.decode input).bind fun doc =>
    ((doc.withStrict a.strict).tryQuery a.path).map fun found => .array (a.refine found)).mapError
      .query

/-- What is shown; `read` gives the bytes of a source. -/
def run (a : Arguments) (read : Source → Except SourceError (List UInt8)) :
    Except RunError (List Char) := do
  let shown ←
    if a.explain then a.explanation
    else do
      let input ← (read a.source).mapError .source
      a.selection input
  return shown.render (if a.compact then .compact else .indented)

end Arguments

/-! ## Replies -/

/-- The exit code of a command and what it writes. -/
structure Reply where
  exitCode : UInt8
  output : String
  errors : String

def versionText : String := "jpath-query 0.1.0\n"

namespace Invocation

/-- The source that has to be read for an answer. -/
def source? : Invocation → Option Source
  | .query a => if a.explain then none else some a.source
  | _ => none

/-- What a command answers.  The texts on its usage, for help and for a misuse, are left out. -/
def reply (read : Source → Except SourceError (List UInt8)) : Invocation → Reply
  | .query a =>
      match a.run read with
      | .ok text => ⟨0, String.ofList text ++ "\n", ""⟩
      | .error e => ⟨1, "", e.message ++ "\n"⟩
  | .version => ⟨0, versionText, ""⟩
  | .help => ⟨0, "", ""⟩
  | .misuse => ⟨2, "", ""⟩

end Invocation

end JsonSelect
