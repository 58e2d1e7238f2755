/-
# JsonSelect.Json.Reading.Failure -- why and where a text is not JSON

A reader that fails names a cause and counts the bytes that are unread at the place it
reports.  Only when the whole text is known does the count become a line and a column
(`DecodeError.ofFailure`).
-/
import JsonSelect.Json.Basic
import JsonSelect.Text.Quoted

namespace JsonSelect

set_option autoImplicit false

/-- A value that holds no others. -/
inductive Scalar where
  | null
  | bool (value : Bool)
  | number (value : Number)
  | string (value : String)

namespace Scalar

def toJson : Scalar → Json
  | .null => .null
  | .bool b => .bool b
  | .number n => .number n
  | .string s => .string s

def describe : Scalar → String
  | .null => "null"
  | .bool true => "boolean `true`"
  | .bool false => "boolean `false`"
  | .number (.whole n _) => "integer `" ++ String.ofList (Number.wholeText n) ++ "`"
  | .number (.double x) => "floating point `" ++ String.ofList (DecimalFormat.json.double x) ++ "`"
  | .string s => "string " ++ String.ofList (Quoted.text s)

end Scalar

/-- What stands at the root of a document in place of an object. -/
inductive Misplaced where
  | scalar (value : Scalar)
  | array

def Misplaced.describe : Misplaced → String
  | .scalar value => value.describe
  | .array => "sequence"

namespace Json

inductive Cause where
  | endInValue
  | endInArray
  | endInObject
  | endInString
  | expectedValue
  | expectedColon
  | expectedItemEnd
  | expectedMemberEnd
  | trailingComma
  | keyNotString
  | unknownWord
  | invalidNumber
  | numberOutOfRange
  | invalidEscape
  | loneSurrogate
  | brokenSurrogatePair
  | controlCharacter
  /-- The content of a string stops being UTF-8 and goes on for some more bytes. -/
  | invalidText (undecoded : Nat)
  | tooDeep
  | trailingCharacters
  | rootNotObject (found : Misplaced)

namespace Cause

def message : Cause → String
  | .endInValue => "EOF while parsing a value"
  | .endInArray => "EOF while parsing a list"
  | .endInObject => "EOF while parsing an object"
  | .endInString => "EOF while parsing a string"
  | .expectedValue => "expected value"
  | .expectedColon => "expected `:`"
  | .expectedItemEnd => "expected `,` or `]`"
  | .expectedMemberEnd => "expected `,` or `\x7d`"
  | .trailingComma => "trailing comma"
  | .keyNotString => "key must be a string"
  | .unknownWord => "expected ident"
  | .invalidNumber => "invalid number"
  | .numberOutOfRange => "number out of range"
  | .invalidEscape => "invalid escape"
  | .loneSurrogate => "lone leading surrogate in hex escape"
  | .brokenSurrogatePair => "unexpected end of hex escape"
  | .controlCharacter => "control character (\\u0000-\\u001F) found while parsing a string"
  | .invalidText _ => "invalid unicode code point"
  | .tooDeep => "recursion limit exceeded"
  | .trailingCharacters => "trailing characters"
  | .rootNotObject found => "invalid type: " ++ found.describe ++ ", expected a map"

/-- How far the column goes back from the reported place. -/
def columnsBack : Cause → Nat
  | .invalidText undecoded => undecoded
  | _ => 0

end Cause

/-- A cause, and how many bytes are unread at the place that is reported. -/
structure Failure where
  cause : Cause
  unread : Nat

namespace Failure

/-- A failure that is reported after the bytes that were read. -/
def after (cause : Cause) (rest : List UInt8) : Failure := ⟨cause, rest.length⟩

/-- A failure that is reported after the first unread byte, if there is one. -/
def afterNext (cause : Cause) (rest : List UInt8) : Failure := ⟨cause, rest.length - 1⟩

end Failure

/-! ## Lines and columns -/

def newline : UInt8 := 0x0a

/-- The number of the last line of some bytes, the first line being 1. -/
def lineOf (read : List UInt8) : Nat := 1 + read.count newline

/-- The number of bytes since the last newline. -/
def columnOf (read : List UInt8) : Nat := (read.reverse.takeWhile (· ≠ newline)).length

structure DecodeError where
  cause : Cause
  line : Nat
  column : Nat

namespace DecodeError

/-- The error of a failure in reading `input`. -/
def ofFailure (input : List UInt8) (failure : Failure) : DecodeError :=
  let read := input.take (input.length - failure.unread)
  ⟨failure.cause, lineOf read, columnOf read - failure.cause.columnsBack⟩

def message (e : DecodeError) : String :=
  e.cause.message ++ " at line " ++ String.ofList (Decimal.figures e.line) ++
    " column " ++ String.ofList (Decimal.figures e.column)

end DecodeError

end Json

end JsonSelect
