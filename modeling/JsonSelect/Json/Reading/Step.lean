/-
# JsonSelect.Json.Reading.Step -- reading from bytes

A reader takes something off the front of the bytes it is given.  Its result holds a
proof that fewer bytes are left, which is what ends the loops over items and members.
-/
import JsonSelect.Json.Reading.Failure

namespace JsonSelect.Json

set_option autoImplicit false

/-! ## Bytes with a meaning -/

namespace Ascii

def quote : UInt8 := 0x22
def plus : UInt8 := 0x2b
def comma : UInt8 := 0x2c
def minus : UInt8 := 0x2d
def point : UInt8 := 0x2e
def zero : UInt8 := 0x30
def nine : UInt8 := 0x39
def colon : UInt8 := 0x3a
def upperE : UInt8 := 0x45
def openBracket : UInt8 := 0x5b
def backslash : UInt8 := 0x5c
def closeBracket : UInt8 := 0x5d
def lowerE : UInt8 := 0x65
def lowerF : UInt8 := 0x66
def lowerN : UInt8 := 0x6e
def lowerT : UInt8 := 0x74
def lowerU : UInt8 := 0x75
def openBrace : UInt8 := 0x7b
def closeBrace : UInt8 := 0x7d

end Ascii

def isDigit (b : UInt8) : Bool := Ascii.zero ≤ b && b ≤ Ascii.nine

def digitValue (b : UInt8) : Nat := b.toNat - Ascii.zero.toNat

/-- Blanks are the space, the tabulator, the line feed and the carriage return. -/
def isBlank (b : UInt8) : Bool := b == 0x20 || b == 0x09 || b == 0x0a || b == 0x0d

def skipBlanks (s : List UInt8) : List UInt8 := s.dropWhile isBlank

theorem length_skipBlanks_le (s : List UInt8) : (skipBlanks s).length ≤ s.length :=
  (List.dropWhile_sublist _).length_le

/-! ## Results -/

/-- Every success leaves fewer bytes than there were. -/
def Shortens {α : Type} (read : List UInt8 → Except Failure (α × List UInt8)) : Prop :=
  ∀ {s : List UInt8} {found : α} {rest : List UInt8},
    read s = .ok (found, rest) → rest.length < s.length

/-- What was read off `s`, and the fewer bytes after it. -/
structure Step (s : List UInt8) (α : Type) where
  found : α
  rest : List UInt8
  shorter : rest.length < s.length

abbrev Reader (α : Type) := (s : List UInt8) → Except Failure (Step s α)

/-- A reader from a function that never succeeds without reading something. -/
def Reader.of {α : Type} (read : List UInt8 → Except Failure (α × List UInt8))
    (shortens : Shortens read) : Reader α :=
  fun s =>
    match h : read s with
    | .ok (found, rest) => .ok ⟨found, rest, shortens h⟩
    | .error failure => .error failure

/-- Reads `word`.  The first byte that differs from it counts as read. -/
def readWord : (word s : List UInt8) → Except Failure (Unit × List UInt8)
  | [], s => .ok ((), s)
  | _ :: _, [] => .error (.after .endInValue [])
  | w :: word, b :: s =>
      if b = w then readWord word s else .error (.after .unknownWord s)

theorem length_rest_readWord_le {word s rest : List UInt8} (h : readWord word s = .ok ((), rest)) :
    rest.length ≤ s.length := by
  induction word generalizing s with
  | nil => cases h; exact Nat.le_refl _
  | cons w word ih =>
      cases s with
      | nil => cases h
      | cons b s =>
          simp only [readWord] at h
          split at h
          · exact Nat.le_succ_of_le (ih h)
          · cases h

end JsonSelect.Json
