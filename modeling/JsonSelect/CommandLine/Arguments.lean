/-
# JsonSelect.CommandLine.Arguments -- what a command asks for

A command has a path expression and may name a file.  Options stand anywhere before
`--`; flags and `--default` are given at most once, and `-v` as often as one likes.
Arguments are read from left to right: whichever comes first decides, a request for the
version or for help, or an argument that is refused.
-/
namespace JsonSelect

set_option autoImplicit false

/-- What is asked of a query. -/
structure Arguments where
  path : String
  /-- The standard input is read where no file is named. -/
  file : Option String
  strict : Bool
  first : Bool
  unique : Bool
  explain : Bool
  compact : Bool
  default : Option String
  deriving DecidableEq

inductive Invocation where
  | query (arguments : Arguments)
  | version
  | help
  | misuse
  deriving DecidableEq

/-! ## The forms of an argument -/

inductive Argument where
  /-- Two hyphens, behind which no options stand. -/
  | endOfOptions
  /-- A name behind two hyphens, and what is attached to it behind an equals sign. -/
  | long (name : String) (attached : Option String)
  /-- Letters behind a hyphen. -/
  | short (letters : List Char)
  | plain

def Argument.ofChars : List Char → Argument
  | '-' :: '-' :: [] => .endOfOptions
  | '-' :: '-' :: s =>
      let name := String.ofList (s.takeWhile (· ≠ '='))
      match s.dropWhile (· ≠ '=') with
      | [] => .long name none
      | _ :: value => .long name (some (String.ofList value))
  | '-' :: c :: s => .short (c :: s)
  | _ => .plain

/-- Whether an argument may be the value of an option that stands before it. -/
def Argument.isPlain : Argument → Bool
  | .plain => true
  | _ => false

/-! ## Gathering -/

/-- What the arguments so far have said. -/
structure Gathered where
  path : Option String
  file : Option String
  strict : Bool
  first : Bool
  unique : Bool
  explain : Bool
  compact : Bool
  default : Option String

namespace Gathered

def nothing : Gathered := ⟨none, none, false, false, false, false, false, none⟩

/-- A flag is raised once. -/
def raise? (g : Gathered) (name : String) : Option Gathered :=
  if name = "strict" ∧ ¬ g.strict then some { g with strict := true }
  else if name = "first" ∧ ¬ g.first then some { g with first := true }
  else if name = "unique" ∧ ¬ g.unique then some { g with unique := true }
  else if name = "explain" ∧ ¬ g.explain then some { g with explain := true }
  else if name = "compact" ∧ ¬ g.compact then some { g with compact := true }
  else if name = "verbose" then some g
  else none

def setDefault? (g : Gathered) (value : String) : Option Gathered :=
  match g.default with
  | none => some { g with default := some value }
  | some _ => none

/-- The first is the path, the second a file, whose name is not empty. -/
def addPlain? (g : Gathered) (text : String) : Option Gathered :=
  match g.path, g.file with
  | none, _ => some { g with path := some text }
  | some _, none => if text = "" then none else some { g with file := some text }
  | some _, some _ => none

def finish (g : Gathered) : Invocation :=
  match g.path with
  | none => .misuse
  | some path =>
      .query ⟨path, g.file, g.strict, g.first, g.unique, g.explain, g.compact, g.default⟩

end Gathered

/-- Letters behind one hyphen: none when all of them only ask for more messages. -/
def shortLetters : List Char → Option Invocation
  | [] => none
  | c :: rest =>
      if c = 'v' then shortLetters rest
      else if c = 'V' then some .version
      else if c = 'h' then some .help
      else some .misuse

namespace Invocation

/-- The arguments behind two hyphens. -/
def readPlain (g : Gathered) : List String → Invocation
  | [] => g.finish
  | text :: rest =>
      match g.addPlain? text with
      | some g => readPlain g rest
      | none => .misuse

def read (g : Gathered) : List String → Invocation
  | [] => g.finish
  | text :: rest =>
      match Argument.ofChars text.toList with
      | .endOfOptions => readPlain g rest
      | .plain =>
          match g.addPlain? text with
          | some g => read g rest
          | none => .misuse
      | .short letters => (shortLetters letters).getD (read g rest)
      | .long "default" (some value) =>
          match g.setDefault? value with
          | some g => read g rest
          | none => .misuse
      | .long "default" none =>
          match rest with
          | [] => .misuse
          | value :: rest =>
              if (Argument.ofChars value.toList).isPlain then
                match g.setDefault? value with
                | some g => read g rest
                | none => .misuse
              else .misuse
      | .long "version" none => .version
      | .long "help" none => .help
      | .long name none =>
          match g.raise? name with
          | some g => read g rest
          | none => .misuse
      | .long _ (some _) => .misuse

def ofArguments (arguments : List String) : Invocation := read .nothing arguments

end Invocation

end JsonSelect
