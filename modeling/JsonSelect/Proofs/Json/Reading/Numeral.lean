/-
# JsonSelect.Proofs.Json.Reading.Numeral -- a numeral is read alone

The reader of a numeral takes exactly its bytes, and what it makes of them does not depend
on what follows, as long as the numeral does not go on there.

* `EndsNumeral` holds of bytes in front of which a numeral ends.
* `wholePart_whole`: digits are read into their number if it has 64 bits.
* `readAlone_readUnsigned`: so it is for any numeral of the grammar.
-/
import JsonSelect.Proofs.Json.Grammar
import JsonSelect.Proofs.Json.Reading.Plain

namespace JsonSelect.Json

set_option autoImplicit false

/-! ## What may follow -/

/-- A digit is no byte that is none. -/
theorem digit_ne {d b : UInt8} (digit : isDigit d = true) (other : isDigit b = false) : d ≠ b := by
  rintro rfl
  cases digit.symm.trans other

/-- No digit comes first. -/
def NoDigit (s : List UInt8) : Prop := ∀ b ∈ s.head?, isDigit b = false

/-- Neither a digit nor a point comes first. -/
def NoFraction (s : List UInt8) : Prop := NoDigit s ∧ ∀ b ∈ s.head?, b ≠ Ascii.point

/-- A numeral ends before these bytes. -/
def EndsNumeral (s : List UInt8) : Prop :=
  NoFraction s ∧ ∀ b ∈ s.head?, b ≠ Ascii.lowerE ∧ b ≠ Ascii.upperE

theorem noDigit_cons_iff {b : UInt8} {s : List UInt8} : NoDigit (b :: s) ↔ isDigit b = false := by
  simp [NoDigit]

theorem noFraction_cons_iff {b : UInt8} {s : List UInt8} :
    NoFraction (b :: s) ↔ isDigit b = false ∧ b ≠ Ascii.point := by
  simp [NoFraction, NoDigit]

theorem endsNumeral_cons_iff {b : UInt8} {s : List UInt8} :
    EndsNumeral (b :: s) ↔
      (isDigit b = false ∧ b ≠ Ascii.point) ∧ b ≠ Ascii.lowerE ∧ b ≠ Ascii.upperE := by
  simp [EndsNumeral, NoFraction, NoDigit]

theorem endsNumeral_nil : EndsNumeral [] := by
  simp [EndsNumeral, NoFraction, NoDigit]

/-! ## Runs of digits -/

theorem takeDigits_append (limit value : Nat) {ds rest : List UInt8} (digits : AllDigits ds)
    (ends : NoDigit rest) :
    takeDigits limit value (ds ++ rest) =
      { takeDigits limit value ds with rest := (takeDigits limit value ds).rest ++ rest } := by
  induction ds generalizing value with
  | nil =>
      cases rest with
      | nil => rfl
      | cons b rest => simp [takeDigits, noDigit_cons_iff.1 ends]
  | cons d ds ih =>
      obtain ⟨digit, more⟩ := List.forall_mem_cons.1 digits
      rw [List.cons_append, takeDigits, takeDigits]
      by_cases fits : isDigit d = true ∧ value * 10 + digitValue d < limit
      · simp only [if_pos fits, ih _ more]
      · simp only [if_neg fits, List.cons_append]

theorem allDigits_rest_takeDigits (limit value : Nat) {ds : List UInt8} (digits : AllDigits ds) :
    AllDigits (takeDigits limit value ds).rest := by
  induction ds generalizing value with
  | nil => exact digits
  | cons d ds ih =>
      rw [takeDigits]
      split
      · exact ih _ (List.forall_mem_cons.1 digits).2
      · exact digits

theorem skipDigits_append {ds rest : List UInt8} (digits : AllDigits ds) (ends : NoDigit rest) :
    skipDigits (ds ++ rest) = rest := by
  induction ds with
  | nil =>
      cases rest with
      | nil => rfl
      | cons b rest => simp [skipDigits, noDigit_cons_iff.1 ends]
  | cons d ds ih =>
      obtain ⟨digit, more⟩ := List.forall_mem_cons.1 digits
      rw [skipDigits, List.cons_append, List.dropWhile_cons_of_pos digit]
      exact ih more

theorem skipDigits_rest_append (limit value : Nat) {ds rest : List UInt8} (digits : AllDigits ds)
    (ends : NoDigit rest) : skipDigits ((takeDigits limit value ds).rest ++ rest) = rest :=
  skipDigits_append (allDigits_rest_takeDigits limit value digits) ends

/-! ## The number of digits -/

/-- The number that digits make behind `value`. -/
def digitsValue (value : Nat) (s : List UInt8) : Nat :=
  s.foldl (fun value b => value * 10 + digitValue b) value

theorem digitsValue_cons (value : Nat) (b : UInt8) (s : List UInt8) :
    digitsValue value (b :: s) = digitsValue (value * 10 + digitValue b) s := by
  simp only [digitsValue, List.foldl_cons]

theorem le_digitsValue (value : Nat) (s : List UInt8) : value ≤ digitsValue value s := by
  induction s generalizing value with
  | nil => exact Nat.le_refl value
  | cons b s ih =>
      have more := ih (value * 10 + digitValue b)
      rw [digitsValue_cons]
      omega

/-- Digits are all taken if their number stays below the limit. -/
theorem takeDigits_all {limit value : Nat} {s : List UInt8} (digits : AllDigits s)
    (fits : digitsValue value s < limit) :
    takeDigits limit value s = ⟨digitsValue value s, s.length, []⟩ := by
  induction s generalizing value with
  | nil => rfl
  | cons b s ih =>
      obtain ⟨digit, more⟩ := List.forall_mem_cons.1 digits
      rw [digitsValue_cons] at fits ⊢
      have stays : value * 10 + digitValue b < limit :=
        Nat.lt_of_le_of_lt (le_digitsValue _ s) fits
      rw [takeDigits, if_pos ⟨digit, stays⟩, ih more fits]
      rfl

/-- Where no digit is left, all of them were taken. -/
theorem value_takeDigits_of_rest {limit value : Nat} {s : List UInt8}
    (all : (takeDigits limit value s).rest = []) :
    (takeDigits limit value s).value = digitsValue value s := by
  induction s generalizing value with
  | nil => rfl
  | cons b s ih =>
      rw [takeDigits] at all ⊢
      split at all
      · rename_i taken
        rw [if_pos taken, digitsValue_cons]
        exact ih all
      · cases all

/-- All digits of a whole part are taken if their number has 64 bits. -/
theorem wholePart_whole {s rest : List UInt8} (whole : IsWhole s)
    (fits : digitsValue 0 s < significandLimit) (ends : NoDigit rest) :
    wholePart (s ++ rest) = .ok (⟨digitsValue 0 s, 0, true⟩, rest) := by
  cases whole with
  | zero =>
      cases rest with
      | nil => rfl
      | cons b rest => simp [wholePart, noDigit_cons_iff.1 ends, digitsValue, digitValue]
  | @digits d ds digit nonzero more =>
      rw [digitsValue_cons, Nat.zero_mul, Nat.zero_add] at fits ⊢
      have taken := takeDigits_append significandLimit (digitValue d) more ends
      rw [takeDigits_all more fits] at taken
      have kept : skipDigits rest = rest := skipDigits_append (List.forall_mem_nil _) ends
      rw [List.cons_append, wholePart]
      simp [nonzero, digit, taken, kept]

/-! ## Numerals -/

theorem readAlone_wholePart {whole : List UInt8} (isWhole : IsWhole whole) :
    ∃ n : Numeral, (n.whole = true → n.significand = digitsValue 0 whole) ∧
      ∀ rest, NoDigit rest → wholePart (whole ++ rest) = .ok (n, rest) := by
  cases isWhole with
  | zero =>
      refine ⟨⟨0, 0, true⟩, fun _ => by decide, fun rest ends => ?_⟩
      cases rest with
      | nil => rfl
      | cons b rest => simp [wholePart, noDigit_cons_iff.1 ends]
  | @digits d ds digit nonzero more =>
      let run := takeDigits significandLimit (digitValue d) ds
      refine ⟨⟨run.value, run.rest.length, run.rest.length = 0⟩, fun all => ?_, fun rest ends => ?_⟩
      · have none : run.rest = [] := List.eq_nil_of_length_eq_zero (of_decide_eq_true all)
        rw [digitsValue_cons, Nat.zero_mul, Nat.zero_add]
        exact value_takeDigits_of_rest none
      · simp [wholePart, nonzero, digit, takeDigits_append _ _ more ends,
          skipDigits_rest_append _ _ more ends, run]

theorem readAlone_fractionPart (n : Numeral) {fraction : List UInt8}
    (isFraction : IsFraction fraction) :
    ∃ m, ∀ rest, NoFraction rest → fractionPart n (fraction ++ rest) = .ok (m, rest) := by
  cases isFraction with
  | missing =>
      refine ⟨n, fun rest ends => ?_⟩
      cases rest with
      | nil => rfl
      | cons b rest => simp [fractionPart, noFraction_cons_iff.1 ends]
  | @digits d ds digit more =>
      let run := takeDigits significandLimit n.significand (d :: ds)
      have digits : AllDigits (d :: ds) := List.forall_mem_cons.2 ⟨digit, more⟩
      refine ⟨⟨run.value, n.power - run.count, false⟩, fun rest ends => ?_⟩
      have taken := takeDigits_append significandLimit n.significand digits ends.1
      rw [List.cons_append] at taken
      simp [fractionPart, digit, taken, skipDigits_rest_append _ _ digits ends.1, run]

theorem readAlone_exponentDigits (n : Numeral) (negative : Bool) {d : UInt8} {ds : List UInt8}
    (digit : isDigit d = true) (more : AllDigits ds) :
    ReadAlone (exponentDigits n negative) (d :: ds) NoDigit := by
  let run := takeDigits exponentLimit (digitValue d) ds
  have taken (rest : List UInt8) (ends : NoDigit rest) :
      takeDigits exponentLimit (digitValue d) (ds ++ rest) =
        { run with rest := run.rest ++ rest } :=
    takeDigits_append _ _ more ends
  have skipped (rest : List UInt8) (ends : NoDigit rest) : skipDigits (run.rest ++ rest) = rest :=
    skipDigits_rest_append _ _ more ends
  -- The run ends early only at the limit, and what comes of that depends on the digits alone.
  by_cases whole : run.rest = []
  · refine ⟨some ⟨n.significand, if negative then n.power - run.value else n.power + run.value,
      false⟩, fun rest ends => ?_⟩
    have kept : skipDigits rest = rest := by simpa [whole] using skipped rest ends
    simp [Leaves, exponentDigits, digit, taken rest ends, whole, kept]
  · by_cases small : negative = true ∨ n.significand = 0
    · refine ⟨some ⟨0, 0, false⟩, fun rest ends => ?_⟩
      simp [Leaves, exponentDigits, digit, taken rest ends, skipped rest ends, whole, small]
    · refine ⟨none, fun rest ends => ?_⟩
      simp [Leaves, exponentDigits, digit, taken rest ends, skipped rest ends, whole, small]

theorem exponentPart_of_mark (n : Numeral) {mark d : UInt8} {sign rest : List UInt8}
    (marks : mark = Ascii.lowerE ∨ mark = Ascii.upperE)
    (signs : sign ∈ [[], [Ascii.minus], [Ascii.plus]]) (digit : isDigit d = true) :
    exponentPart n (mark :: (sign ++ d :: rest)) =
      exponentDigits n (decide (sign = [Ascii.minus])) (d :: rest) := by
  have notMinus : d ≠ Ascii.minus := digit_ne digit rfl
  have notPlus : d ≠ Ascii.plus := digit_ne digit rfl
  have plusNotMinus : Ascii.plus ≠ Ascii.minus := by decide
  simp only [List.mem_cons, List.not_mem_nil, or_false] at signs
  rcases signs with rfl | rfl | rfl <;>
    simp [exponentPart, marks, notMinus, notPlus, plusNotMinus]

theorem readAlone_exponentPart (n : Numeral) {exponent : List UInt8}
    (isExponent : IsExponent exponent) : ReadAlone (exponentPart n) exponent EndsNumeral := by
  cases isExponent with
  | missing =>
      refine ⟨some n, fun rest ends => ?_⟩
      cases rest with
      | nil => rfl
      | cons b rest => simp [Leaves, exponentPart, endsNumeral_cons_iff.1 ends]
  | @digits mark d sign ds marks signs digit more =>
      obtain ⟨outcome, read⟩ :=
        readAlone_exponentDigits n (decide (sign = [Ascii.minus])) digit more
      refine ⟨outcome, fun rest ends => ?_⟩
      have shape : mark :: (sign ++ d :: ds) ++ rest = mark :: (sign ++ d :: (ds ++ rest)) := by
        simp
      rw [shape, exponentPart_of_mark n marks signs digit]
      exact read rest ends.1.1

theorem noFraction_exponent_append {exponent rest : List UInt8} (isExponent : IsExponent exponent)
    (ends : EndsNumeral rest) : NoFraction (exponent ++ rest) := by
  cases isExponent with
  | missing => exact ends.1
  | digits marks =>
      rw [List.cons_append, noFraction_cons_iff]
      rcases marks with rfl | rfl <;> decide

theorem noDigit_fraction_append {fraction rest : List UInt8} (isFraction : IsFraction fraction)
    (ends : NoFraction rest) : NoDigit (fraction ++ rest) := by
  cases isFraction with
  | missing => exact ends.1
  | digits => exact noDigit_cons_iff.2 rfl

theorem readAlone_readUnsigned (negative : Bool) {numeral : List UInt8}
    (isUnsigned : IsUnsigned numeral) : ReadAlone (readUnsigned negative) numeral EndsNumeral := by
  obtain ⟨isWhole, isFraction, isExponent⟩ := isUnsigned
  obtain ⟨n, -, whole⟩ := readAlone_wholePart isWhole
  obtain ⟨m, fraction⟩ := readAlone_fractionPart n isFraction
  obtain ⟨outcome, exponent⟩ := readAlone_exponentPart m isExponent
  refine ⟨outcome.bind (·.number? negative), fun rest ends => ?_⟩
  have noFraction := noFraction_exponent_append isExponent ends
  have noDigit := noDigit_fraction_append isFraction noFraction
  rw [List.append_assoc, List.append_assoc, readUnsigned, readNumeral]
  simp only [whole _ noDigit, fraction _ noFraction, ok_bind]
  refine (exponent rest ends).bind fun k _ => ?_
  cases number : k.number? negative with
  | none => exact leaves_error _ rest
  | some x => exact leaves_ok x rest

end JsonSelect.Json
