/-
# JsonSelect.Selection.Positions -- the items that a text between brackets selects

The text is `*`, a position or two bounds with a colon between them.  Positions and
bounds are whole numbers of 64 bits with an optional sign; negative ones count from the
end.  A number whose absolute value is not below the length is out of range, so minus
the length is, too.
-/
import JsonSelect.Number.Word

namespace JsonSelect

set_option autoImplicit false

inductive Positions where
  | all
  | single (position : Int)
  /-- From the first bound up to the second, which is left out.  Without a bound the
  items are taken from the start or to the end. -/
  | between (start stop : Option Int)
  deriving DecidableEq

namespace Positions

/-! ## Texts -/

/-- The number that decimal digits make; there has to be one. -/
def natural? (text : List Char) : Option Nat :=
  if text ≠ [] ∧ text.all Char.isDigit then
    some (text.foldl (fun n c => n * 10 + (c.toNat - '0'.toNat)) 0)
  else none

/-- A whole number with at most one sign. -/
def integer? : List Char → Option Int
  | '-' :: digits => (natural? digits).map fun n => -(n : Int)
  | '+' :: digits => (natural? digits).map Int.ofNat
  | digits => (natural? digits).map Int.ofNat

/-- A whole number that fits in 64 bits with its sign. -/
def number? (text : List Char) : Option Int :=
  (integer? text).filter fun i => FitsSigned i

/-- A bound, which may be left out. -/
def bound? (text : List Char) : Option (Option Int) :=
  if text = [] then some none else (number? text).map some

/-- The texts on both sides of a colon that is the only one. -/
def aroundColon? (text : List Char) : Option (List Char × List Char) :=
  match text.dropWhile (· ≠ ':') with
  | [] => none
  | _ :: right => if ':' ∈ right then none else some (text.takeWhile (· ≠ ':'), right)

def parse? (text : List Char) : Option Positions :=
  if text = ['*'] then some .all
  else
    match number? text with
    | some i => some (.single i)
    | none => do
        let (left, right) ← aroundColon? text
        return .between (← bound? left) (← bound? right)

/-! ## Items -/

/-- The place of a position in a list of `length` items, if it is in range. -/
def resolve? (length : Nat) (i : Int) : Option Nat :=
  if i.natAbs < length then some (if i < 0 then length - i.natAbs else i.natAbs) else none

/-- The place of a bound, `missing` being the place of one that is left out. -/
def resolveBound? (length missing : Nat) : Option Int → Option Nat
  | none => some missing
  | some i => resolve? length i

variable {α : Type}

def select (items : List α) : Positions → List α
  | .all => items
  | .single i => ((resolve? items.length i).bind (items[·]?)).toList
  | .between start stop =>
      match resolveBound? items.length 0 start, resolveBound? items.length items.length stop with
      | some start, some stop => (items.take stop).drop start
      | _, _ => []

/-- The items that a text selects; a text of no form selects none. -/
def selectText (text : String) (items : List α) : List α :=
  match parse? text.toList with
  | some positions => positions.select items
  | none => []

end Positions

end JsonSelect
