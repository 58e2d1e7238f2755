/-
# JsonSelect.Json.Reading.Numeral -- numbers in text

A numeral is read into a significand of 64 bits and a power of ten.  Digits that do not
fit in the significand only count: those of the whole part raise the power, those of the
fraction are passed over.  A numeral without fraction and exponent, all of whose digits
fit, is a whole number; every other one is a double.
-/
import JsonSelect.Json.Reading.Step

namespace JsonSelect.Json

set_option autoImplicit false

/-! ## Runs of digits -/

/-- A number that digits make, how many they are, and the bytes after them. -/
structure DigitRun where
  value : Nat
  count : Nat
  rest : List UInt8

/-- Reads digits into `value` for as long as it stays below `limit`. -/
def takeDigits (limit value : Nat) : List UInt8 → DigitRun
  | [] => ⟨value, 0, []⟩
  | b :: s =>
      if isDigit b ∧ value * 10 + digitValue b < limit then
        let run := takeDigits limit (value * 10 + digitValue b) s
        { run with count := run.count + 1 }
      else ⟨value, 0, b :: s⟩

theorem length_rest_takeDigits_le (limit value : Nat) (s : List UInt8) :
    (takeDigits limit value s).rest.length ≤ s.length := by
  induction s generalizing value with
  | nil => exact Nat.le_refl _
  | cons b s ih =>
      simp only [takeDigits]
      split
      · exact Nat.le_succ_of_le (ih _)
      · exact Nat.le_refl _

/-- Passes over digits. -/
def skipDigits (s : List UInt8) : List UInt8 := s.dropWhile isDigit

theorem length_skipDigits_le (s : List UInt8) : (skipDigits s).length ≤ s.length :=
  (List.dropWhile_sublist _).length_le

/-! ## The parts of a numeral -/

/-- What is known of a numeral: its digits, the power of ten they are to be scaled by,
and whether they are a whole number as they stand. -/
structure Numeral where
  significand : Nat
  power : Int
  whole : Bool
  deriving DecidableEq

/-- Significands are below this. -/
def significandLimit : Nat := 0x10000000000000000

/-- The digits of exponents stay below this. -/
def exponentLimit : Nat := 0x80000000

/-- The digits before the point.  There is at least one, and none behind a leading
zero. -/
def wholePart (s : List UInt8) : Except Failure (Numeral × List UInt8) :=
  match s with
  | [] => .error (.after .endInValue [])
  | b :: s =>
      if b = Ascii.zero then
        if s.head?.any isDigit then .error (.afterNext .invalidNumber s)
        else .ok (⟨0, 0, true⟩, s)
      else if isDigit b then
        let run := takeDigits significandLimit (digitValue b) s
        let rest := skipDigits run.rest
        let skipped := run.rest.length - rest.length
        .ok (⟨run.value, skipped, skipped = 0⟩, rest)
      else .error (.after .invalidNumber s)

/-- The digits behind a point, of which there is at least one; nothing changes where
there is no point. -/
def fractionPart (n : Numeral) (s : List UInt8) : Except Failure (Numeral × List UInt8) :=
  match s with
  | [] => .ok (n, [])
  | b :: s =>
      if b = Ascii.point then
        match s with
        | [] => .error (.after .endInValue [])
        | d :: s =>
            if isDigit d then
              let run := takeDigits significandLimit n.significand (d :: s)
              .ok (⟨run.value, n.power - run.count, false⟩, skipDigits run.rest)
            else .error (.afterNext .invalidNumber (d :: s))
      else .ok (n, b :: s)

/-- The digits of an exponent with its sign.  Past the limit nothing is left of the
number if the exponent is negative, nor of zero; any other number is refused at the
digit that passes it. -/
def exponentDigits (n : Numeral) (negative : Bool) (s : List UInt8) :
    Except Failure (Numeral × List UInt8) :=
  match s with
  | [] => .error (.after .endInValue [])
  | b :: s =>
      if isDigit b then
        let run := takeDigits exponentLimit (digitValue b) s
        let rest := skipDigits run.rest
        if rest.length = run.rest.length then
          let power := if negative then n.power - run.value else n.power + run.value
          .ok (⟨n.significand, power, false⟩, rest)
        else if negative ∨ n.significand = 0 then .ok (⟨0, 0, false⟩, rest)
        else .error (.afterNext .numberOutOfRange run.rest)
      else .error (.after .invalidNumber s)

/-- An exponent with its mark; nothing changes where there is none. -/
def exponentPart (n : Numeral) (s : List UInt8) : Except Failure (Numeral × List UInt8) :=
  match s with
  | [] => .ok (n, [])
  | b :: s =>
      if b = Ascii.lowerE ∨ b = Ascii.upperE then
        match s with
        | [] => exponentDigits n false []
        | c :: t =>
            if c = Ascii.minus then exponentDigits n true t
            else if c = Ascii.plus then exponentDigits n false t
            else exponentDigits n false (c :: t)
      else .ok (n, b :: s)

def readNumeral (s : List UInt8) : Except Failure (Numeral × List UInt8) := do
  let (n, s) ← wholePart s
  let (n, s) ← fractionPart n s
  exponentPart n s

/-! ## What the parts leave -/

theorem wholePart_shortens : Shortens wholePart := by
  intro s n rest h
  cases s with
  | nil => cases h
  | cons b s =>
      simp only [wholePart] at h
      split at h
      · split at h <;> cases h
        exact Nat.lt_succ_self _
      · split at h <;> cases h
        exact Nat.lt_succ_of_le
          (Nat.le_trans (length_skipDigits_le _) (length_rest_takeDigits_le ..))

theorem length_rest_fractionPart_le {n m : Numeral} {s rest : List UInt8}
    (h : fractionPart n s = .ok (m, rest)) : rest.length ≤ s.length := by
  cases s with
  | nil => cases h; exact Nat.le_refl _
  | cons b s =>
      simp only [fractionPart] at h
      split at h
      · cases s with
        | nil => cases h
        | cons d s =>
            simp only at h
            split at h <;> cases h
            exact Nat.le_succ_of_le
              (Nat.le_trans (length_skipDigits_le _) (length_rest_takeDigits_le ..))
      · cases h; exact Nat.le_refl _

theorem length_rest_exponentDigits_le {n m : Numeral} {negative : Bool} {s rest : List UInt8}
    (h : exponentDigits n negative s = .ok (m, rest)) : rest.length ≤ s.length := by
  cases s with
  | nil => cases h
  | cons b s =>
      have le := Nat.le_succ_of_le (Nat.le_trans
        (length_skipDigits_le (takeDigits exponentLimit (digitValue b) s).rest)
        (length_rest_takeDigits_le ..))
      simp only [exponentDigits] at h
      split at h
      · split at h
        · cases h; exact le
        · split at h <;> cases h
          exact le
      · cases h

theorem length_rest_exponentPart_le {n m : Numeral} {s rest : List UInt8}
    (h : exponentPart n s = .ok (m, rest)) : rest.length ≤ s.length := by
  cases s with
  | nil => cases h; exact Nat.le_refl _
  | cons b s =>
      simp only [exponentPart] at h
      split at h
      · cases s with
        | nil => cases h
        | cons c t =>
            simp only at h
            split at h
            · exact Nat.le_succ_of_le (Nat.le_succ_of_le (length_rest_exponentDigits_le h))
            · split at h
              · exact Nat.le_succ_of_le (Nat.le_succ_of_le (length_rest_exponentDigits_le h))
              · exact Nat.le_succ_of_le (length_rest_exponentDigits_le h)
      · cases h; exact Nat.le_refl _

theorem readNumeral_shortens : Shortens readNumeral := by
  intro s n rest h
  simp only [readNumeral, bind, Except.bind] at h
  split at h
  · cases h
  · rename_i whole
    split at h
    · cases h
    · rename_i fraction
      exact Nat.lt_of_le_of_lt (length_rest_exponentPart_le h)
        (Nat.lt_of_le_of_lt (length_rest_fractionPart_le fraction) (wholePart_shortens whole))

/-! ## The number of a numeral -/

/-- The whole number of 64 bits, or the double nearest to it. -/
def wholeNumber? (n : Int) : Option Number :=
  if fits : FitsIn64Bits n then some (.whole n fits) else (Double.ofInt? n).map .double

/-- The number with this sign.  Zero with a minus sign is a double, since no whole
number has the sign. -/
def Numeral.number? (negative : Bool) (n : Numeral) : Option Number :=
  if n.whole ∧ ¬ (negative ∧ n.significand = 0) then
    wholeNumber? (if negative then -n.significand else n.significand)
  else (Magnitude.ofDecimal? n.significand n.power).map fun m => .double ⟨negative, m⟩

/-- The number of a numeral whose sign has been read.  That it is out of range is
reported behind it. -/
def readUnsigned (negative : Bool) (s : List UInt8) : Except Failure (Number × List UInt8) := do
  let (n, rest) ← readNumeral s
  match n.number? negative with
  | some value => .ok (value, rest)
  | none => .error (.after .numberOutOfRange rest)

theorem readUnsigned_shortens (negative : Bool) : Shortens (readUnsigned negative) := by
  intro s found rest h
  simp only [readUnsigned, bind, Except.bind] at h
  split at h
  · cases h
  · rename_i read
    split at h <;> cases h
    exact readNumeral_shortens read

end JsonSelect.Json
