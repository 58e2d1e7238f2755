/-
# JsonSelect.Path.Compile -- path expressions in text

At each place of an expression one of three forms may begin: `..name`, `.name` and
`[text]`, tried in this order.  A name is the longest run of word characters; a bracket
is closed by the last closing bracket on its line, and something has to stand in it.

* `Path.compile` takes the segments from left to right and drops every character that
  begins none.
* `Path.compileStrict` refuses an expression at the first character it would have to
  drop, but for a dollar sign at the start.
-/
import JsonSelect.Path.Segment
import JsonSelect.Text.Quoted

namespace JsonSelect

set_option autoImplicit false

namespace Segment

/-! ## One segment -/

/-- Word characters are the letters and digits of ASCII and the underscore. -/
def isWordChar (c : Char) : Bool := c.isAlphanum || c == '_'

/-- The longest run of word characters, if there is any. -/
def word? (s : List Char) : Option (String × List Char) :=
  match s.takeWhile isWordChar with
  | [] => none
  | c :: name => some (String.ofList (c :: name), s.dropWhile isWordChar)

/-- The text before the last closing bracket of the line, and what follows the
bracket. -/
def beforeLastBracket? : List Char → Option (List Char × List Char)
  | [] => none
  | c :: s =>
      if c = '\n' then none
      else
        match beforeLastBracket? s with
        | some (text, rest) => some (c :: text, rest)
        | none => if c = ']' then some ([], s) else none

def descendant? : List Char → Option (Segment × List Char)
  | '.' :: '.' :: s => (word? s).map fun (name, rest) => (.descendant name, rest)
  | _ => none

def child? : List Char → Option (Segment × List Char)
  | '.' :: s => (word? s).map fun (name, rest) => (.child name, rest)
  | _ => none

def index? : List Char → Option (Segment × List Char)
  | '[' :: s =>
      match beforeLastBracket? s with
      | some (c :: text, rest) => some (.index (String.ofList (c :: text)), rest)
      | _ => none
  | _ => none

/-- The segment that begins here, and what follows it. -/
def scan? (s : List Char) : Option (Segment × List Char) :=
  (descendant? s).or ((child? s).or (index? s))

theorem length_rest_word?_le {s rest : List Char} {name : String}
    (h : word? s = some (name, rest)) : rest.length ≤ s.length := by
  unfold word? at h
  split at h <;> cases h
  exact (List.dropWhile_sublist _).length_le

theorem length_rest_beforeLastBracket?_lt {s text rest : List Char}
    (h : beforeLastBracket? s = some (text, rest)) : rest.length < s.length := by
  induction s generalizing text with
  | nil => cases h
  | cons c s ih =>
      simp only [beforeLastBracket?] at h
      split at h
      · cases h
      · split at h
        · rename_i inner
          cases h
          exact Nat.lt_succ_of_lt (ih inner)
        · split at h <;> cases h
          exact Nat.lt_succ_self _

theorem length_rest_descendant?_lt {s rest : List Char} {segment : Segment}
    (h : descendant? s = some (segment, rest)) : rest.length < s.length := by
  unfold descendant? at h
  split at h
  · simp only [Option.map_eq_some_iff] at h
    obtain ⟨⟨name, left⟩, word, same⟩ := h
    cases same
    exact Nat.lt_succ_of_lt (Nat.lt_succ_of_le (length_rest_word?_le word))
  · cases h

theorem length_rest_child?_lt {s rest : List Char} {segment : Segment}
    (h : child? s = some (segment, rest)) : rest.length < s.length := by
  unfold child? at h
  split at h
  · simp only [Option.map_eq_some_iff] at h
    obtain ⟨⟨name, left⟩, word, same⟩ := h
    cases same
    exact Nat.lt_succ_of_le (length_rest_word?_le word)
  · cases h

theorem length_rest_index?_lt {s rest : List Char} {segment : Segment}
    (h : index? s = some (segment, rest)) : rest.length < s.length := by
  unfold index? at h
  split at h
  · split at h
    · rename_i inner
      cases h
      exact Nat.lt_succ_of_lt (length_rest_beforeLastBracket?_lt inner)
    · cases h
  · cases h

/-- A segment takes at least one character. -/
theorem length_rest_scan?_lt {s rest : List Char} {segment : Segment}
    (h : scan? s = some (segment, rest)) : rest.length < s.length := by
  simp only [scan?, Option.or_eq_some_iff] at h
  rcases h with h | ⟨-, h | ⟨-, h⟩⟩
  · exact length_rest_descendant?_lt h
  · exact length_rest_child?_lt h
  · exact length_rest_index?_lt h

end Segment

/-! ## Whole expressions -/

/-- A character of an expression that begins no segment, with the number of bytes
before it. -/
structure UnexpectedChar where
  position : Nat
  found : Char
  deriving DecidableEq

def UnexpectedChar.message (e : UnexpectedChar) : String :=
  "syntax error: unexpected " ++ String.ofList (Quoted.char e.found) ++ " at position " ++
    String.ofList (Decimal.figures e.position)

namespace Path

/-- The segments of some characters; those that begin none are dropped. -/
def scan : List Char → Path
  | [] => []
  | c :: s =>
      match h : Segment.scan? (c :: s) with
      | some (segment, rest) =>
          have := Segment.length_rest_scan?_lt h
          segment :: scan rest
      | none => scan s
termination_by s => s.length
decreasing_by
  · exact this
  · exact Nat.lt_succ_self _

/-- The segments of some characters, or the first character that begins none and the
characters behind it. -/
def scanStrict : List Char → Except (Char × List Char) Path
  | [] => .ok []
  | c :: s =>
      match h : Segment.scan? (c :: s) with
      | some (segment, rest) =>
          have := Segment.length_rest_scan?_lt h
          (scanStrict rest).map (segment :: ·)
      | none => .error (c, s)
termination_by s => s.length
decreasing_by exact this

/-- An expression without the dollar sign it may start with. -/
def afterDollar : List Char → List Char
  | '$' :: s => s
  | s => s

def compile (expression : String) : Path := scan expression.toList

def compileStrict (expression : String) : Except UnexpectedChar Path :=
  (scanStrict (afterDollar expression.toList)).mapError fun (found, rest) =>
    ⟨Utf8.size expression.toList - Utf8.size (found :: rest), found⟩

/-- Strict or lenient compilation; the lenient one never fails. -/
def compileAs (strict : Bool) (expression : String) : Except UnexpectedChar Path :=
  if strict then compileStrict expression else .ok (compile expression)

end Path

end JsonSelect
