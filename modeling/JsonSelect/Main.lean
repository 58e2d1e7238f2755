/-
# JsonSelect.Main -- the command

Reads the one source that the answer needs, writes the reply and exits with its code.
-/
import JsonSelect.CommandLine.Run

namespace JsonSelect

/-- The number of a system error; where a file cannot be opened its negative is given. -/
def errorNumber (code : UInt32) : Nat := code.toInt32.toInt.natAbs

/-- Why the system could not read a source. -/
def SourceError.ofSystem : IO.Error → SourceError
  | .noFileOrDirectory .. => .notFound
  | .inappropriateType _ code _ =>
      if errorNumber code = 20 then .notDirectory else .isDirectory
  | .permissionDenied .. => .other "Permission denied" 13
  | .invalidArgument _ code details =>
      if errorNumber code = 36 then .nameTooLong else .other details (errorNumber code)
  | _ => .other "Input/output error" 5

/-- The bytes of a source. -/
def Source.read : Source → IO (Except SourceError (List UInt8))
  | .standardInput => do
      return .ok (← (← IO.getStdin).readBinToEnd).data.toList
  | .file name => do
      try return .ok (← IO.FS.readBinFile name).data.toList
      catch e => return .error (.ofSystem e)

end JsonSelect

open JsonSelect in
def main (arguments : List String) : IO UInt32 := do
  let invocation := Invocation.ofArguments arguments
  let bytes ← match invocation.source? with
    | some source => source.read
    | none => pure (.ok [])
  let reply := invocation.reply fun _ => bytes
  IO.print reply.output
  IO.eprint reply.errors
  return reply.exitCode.toUInt32
