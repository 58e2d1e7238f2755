/-
# JsonSelect.Proofs.Json.Reading.Whole -- whole numbers as they are written

A whole number is written in digits, with a minus sign if it is negative.

* `IsWholeLiteral` holds of such a token and the number.
* `readNumeral_whole`: digits are read into their number as long as it has 64 bits.
* `IsWholeLiteral.exists_numeral`: the sign and the numeral that a whole number is read as.
* `exists_number_of_literal`: so the number is stored as the double nearest to it, also where
  it is zero with a minus sign or fits in no word.
* `StaysWhole` holds of the numbers in between: `scalar?_of_literal` reads them as whole
  numbers, and `exists_double_of_literal` reads all others as doubles.
-/
import JsonSelect.Proofs.Json.Reading.Token
import JsonSelect.Proofs.Number.Bits

namespace JsonSelect.Json

set_option autoImplicit false

/-- A numeral without fraction and exponent, and the whole number that it is. -/
inductive IsWholeLiteral : List UInt8 → Int → Prop
  | positive {s : List UInt8} (whole : IsWhole s) : IsWholeLiteral s (digitsValue 0 s)
  | negative {s : List UInt8} (whole : IsWhole s) :
      IsWholeLiteral (Ascii.minus :: s) (-(digitsValue 0 s : Nat))

theorem readNumeral_whole {s : List UInt8} (whole : IsWhole s)
    (fits : digitsValue 0 s < significandLimit) :
    readNumeral s = .ok (⟨digitsValue 0 s, 0, true⟩, []) := by
  have first := wholePart_whole whole fits endsNumeral_nil.1.1
  rw [List.append_nil] at first
  rw [readNumeral, first]
  rfl

theorem IsWhole.isUnsigned {s : List UInt8} (whole : IsWhole s) : IsUnsigned s := by
  have parts := IsUnsigned.parts whole .missing .missing
  rwa [List.append_nil, List.append_nil] at parts

/-! ## The number of digits with a sign -/

/-- A whole number of so many bits is a word or the double nearest to it. -/
theorem exists_wholeNumber? {n : Int} (bits : n.natAbs < significandLimit) :
    ∃ k x, wholeNumber? n = some k ∧ k.asDouble = .double x ∧ x.toInt? = some (nearestWhole n) := by
  obtain ⟨m, nearest⟩ := Magnitude.exists_ofNat? (Nat.le_of_lt bits)
  have stored : Double.ofInt? n = some ⟨decide (n < 0), m⟩ := by
    rw [Double.ofInt?, nearest]
    rfl
  have value := Double.toInt?_of_ofInt? stored
  by_cases fits : FitsIn64Bits n
  · exact ⟨_, _, dif_pos fits, Number.asDouble_of_toDouble? stored, value⟩
  · refine ⟨.double _, _, ?_, rfl, value⟩
    rw [wholeNumber?, dif_neg fits, stored]
    rfl

/-- Zero with a minus sign is a double. -/
theorem number?_minusZero :
    Numeral.number? true ⟨0, 0, true⟩ = some (.double ⟨true, .zero⟩) := by
  have scaled : Magnitude.ofDecimal? 0 0 = some .zero := by decide +kernel
  rw [Numeral.number?, if_neg (by decide), scaled]
  rfl

/-- The number of digits with a sign. -/
theorem exists_number?_of_digits {m : Nat} (bits : m < significandLimit) (negative : Bool) :
    ∃ k x, Numeral.number? negative ⟨m, 0, true⟩ = some k ∧ k.asDouble = .double x ∧
      x.toInt? = some (nearestWhole (if negative then -m else m)) := by
  by_cases minusZero : negative = true ∧ m = 0
  · obtain ⟨rfl, rfl⟩ := minusZero
    exact ⟨_, _, number?_minusZero, rfl, by decide⟩
  · have bits : (if negative then -m else m : Int).natAbs < significandLimit := by
      split <;> omega
    obtain ⟨k, x, found, stored⟩ := exists_wholeNumber? bits
    exact ⟨k, x, (if_pos ⟨rfl, minusZero⟩).trans found, stored⟩

/-! ## The numeral of a whole number -/

/-- Only zero has the value zero. -/
theorem IsWhole.eq_zero {s : List UInt8} (whole : IsWhole s) (zero : digitsValue 0 s = 0) :
    s = [Ascii.zero] := by
  cases whole with
  | zero => rfl
  | @digits d ds digit nonzero more =>
      have le := le_digitsValue (0 * 10 + digitValue d) ds
      rw [← digitsValue_cons, zero] at le
      refine absurd (UInt8.toNat_inj.1 ?_) nonzero
      have atLeast : Ascii.zero ≤ d := of_decide_eq_true (Bool.and_eq_true_iff.1 digit).1
      rw [UInt8.le_iff_toNat_le] at atLeast
      unfold digitValue at le
      omega

/-- Digits are read to their end.  Where a whole number is read it is theirs, as it always is
if that has 64 bits. -/
theorem exists_readNumeral {s : List UInt8} (whole : IsWhole s) :
    ∃ k : Numeral, readNumeral s = .ok (k, []) ∧
      (k.whole = true → k.significand = digitsValue 0 s) ∧
      (digitsValue 0 s < significandLimit → k = ⟨digitsValue 0 s, 0, true⟩) := by
  obtain ⟨k, value, read⟩ := readAlone_wholePart whole
  have alone := read [] endsNumeral_nil.1.1
  rw [List.append_nil] at alone
  have numeral : readNumeral s = .ok (k, []) := by
    rw [readNumeral, alone]
    rfl
  refine ⟨k, numeral, value, fun fits => ?_⟩
  cases numeral.symm.trans (readNumeral_whole whole fits)
  rfl

/-- A whole number is a sign and digits, and it is read as their numeral with the sign. -/
theorem IsWholeLiteral.exists_numeral {token : List UInt8} {n : Int}
    (literal : IsWholeLiteral token n) :
    ∃ (negative : Bool) (m : Nat) (k : Numeral), (if negative then -m else m : Int) = n ∧
      scalar? token = (k.number? negative).map .number ∧
      (k.whole = true → k.significand = m) ∧ (m < significandLimit → k = ⟨m, 0, true⟩) ∧
      (m = 0 → (negative = true ↔ token ≠ [Ascii.zero])) := by
  cases literal with
  | positive whole =>
      obtain ⟨k, read, value, few⟩ := exists_readNumeral whole
      refine ⟨false, _, k, rfl, scalar?_unsigned whole.isUnsigned read, value, few, fun zero => ?_⟩
      simp [whole.eq_zero zero]
  | negative whole =>
      obtain ⟨k, read, value, few⟩ := exists_readNumeral whole
      refine ⟨true, _, k, rfl, scalar?_minus read, value, few, fun _ => ?_⟩
      simp [Ascii.minus, Ascii.zero]

theorem lt_significandLimit_of_natAbs {negative : Bool} {m : Nat} {n : Int}
    (value : (if negative then -m else m : Int) = n) (bits : n.natAbs < significandLimit) :
    m < significandLimit := by
  split at value <;> omega

/-! ## The number that is read -/

/-- **A whole number is stored rounded to 53 bits.** -/
theorem exists_number_of_literal {token : List UInt8} {n : Int} (literal : IsWholeLiteral token n)
    (bits : n.natAbs < significandLimit) :
    ∃ k x, scalar? token = some (.number k) ∧ k.asDouble = .double x ∧
      x.toInt? = some (nearestWhole n) := by
  obtain ⟨negative, m, k, value, means, -, few, -⟩ := literal.exists_numeral
  have bits := lt_significandLimit_of_natAbs value bits
  obtain ⟨number, x, found, stored⟩ := exists_number?_of_digits bits negative
  rw [few bits, found] at means
  rw [value] at stored
  exact ⟨number, x, means, stored⟩

/-- What is read as a whole number: what fits in 64 bits, but for zero with a minus sign. -/
structure StaysWhole (token : List UInt8) (n : Int) : Prop where
  fits : FitsIn64Bits n
  unsigned : n ≠ 0 ∨ token = [Ascii.zero]

theorem StaysWhole.bits {token : List UInt8} {n : Int} (stays : StaysWhole token n) :
    n.natAbs < significandLimit := by
  have fits := stays.fits
  unfold FitsIn64Bits at fits
  unfold significandLimit
  omega

/-- The number of digits with a sign is whole where it fits and is not zero with a minus sign. -/
theorem number?_of_fits (m : Nat) (negative : Bool) {n : Int}
    (value : (if negative then -m else m : Int) = n) (fits : FitsIn64Bits n)
    (proper : ¬ (negative = true ∧ m = 0)) :
    Numeral.number? negative ⟨m, 0, true⟩ = some (.whole n fits) := by
  subst value
  exact (if_pos ⟨rfl, proper⟩).trans (dif_pos fits)

/-- A whole number that fits is read as such, zero where it has no sign. -/
theorem scalar?_of_literal {token : List UInt8} {n : Int} (literal : IsWholeLiteral token n)
    (stays : StaysWhole token n) :
    scalar? token = some (.number (.whole n stays.fits)) := by
  obtain ⟨negative, m, k, value, means, -, few, sign⟩ := literal.exists_numeral
  have proper : ¬ (negative = true ∧ m = 0) := by
    rintro ⟨rfl, rfl⟩
    rcases stays.unsigned with nonzero | same
    · exact nonzero value.symm
    · exact (sign rfl).1 rfl same
  rw [means, few (lt_significandLimit_of_natAbs value stays.bits),
    number?_of_fits m negative value stays.fits proper]
  rfl

theorem eq_of_wholeNumber? {n m : Int} {fits : FitsIn64Bits m}
    (number : wholeNumber? n = some (.whole m fits)) : m = n := by
  unfold wholeNumber? at number
  split at number
  · cases number
    rfl
  · obtain ⟨x, -, same⟩ := Option.map_eq_some_iff.1 number
    cases same

theorem Numeral.of_number?_eq_whole {negative : Bool} {k : Numeral} {m : Int}
    {fits : FitsIn64Bits m} (number : k.number? negative = some (.whole m fits)) :
    k.whole = true ∧ ¬ (negative = true ∧ k.significand = 0) ∧
      m = if negative then -(k.significand : Int) else k.significand := by
  unfold Numeral.number? at number
  by_cases whole : k.whole = true ∧ ¬ (negative = true ∧ k.significand = 0)
  · rw [if_pos whole] at number
    exact ⟨whole.1, whole.2, eq_of_wholeNumber? number⟩
  · rw [if_neg whole] at number
    obtain ⟨x, -, same⟩ := Option.map_eq_some_iff.1 number
    cases same

/-- A whole number that is read is the one that was written, which fits. -/
theorem staysWhole_of_scalar? {token : List UInt8} {n i : Int} {fits : FitsIn64Bits i}
    (literal : IsWholeLiteral token n)
    (read : scalar? token = some (.number (.whole i fits))) : StaysWhole token n := by
  obtain ⟨negative, m, k, value, means, digits, -, sign⟩ := literal.exists_numeral
  obtain ⟨_, number, same⟩ := Option.map_eq_some_iff.1 (means.symm.trans read)
  cases same
  obtain ⟨whole, proper, same⟩ := Numeral.of_number?_eq_whole number
  rw [digits whole] at proper same
  refine ⟨value ▸ same ▸ fits, ?_⟩
  by_cases zero : m = 0
  · have positive : negative ≠ true := fun negative => proper ⟨negative, zero⟩
    exact .inr (not_not.1 (mt (sign zero).2 positive))
  · left
    split at value <;> omega

/-- Zero with a minus sign is read as the negative zero. -/
theorem scalar?_minusZero {token : List UInt8} (literal : IsWholeLiteral token 0)
    (signed : token ≠ [Ascii.zero]) :
    scalar? token = some (.number (.double ⟨true, .zero⟩)) := by
  obtain ⟨negative, m, k, value, means, -, few, sign⟩ := literal.exists_numeral
  have zero : m = 0 := by split at value <;> omega
  subst zero
  rw [means, few (by decide), (sign rfl).2 signed, number?_minusZero]
  rfl

/-- **A whole number that does not stay one is a double**, the nearest one if it has less than
65 bits, and the negative zero if it is zero with a minus sign. -/
theorem exists_double_of_literal {token : List UInt8} {n : Int} {s : Scalar}
    (literal : IsWholeLiteral token n) (drifts : ¬ StaysWhole token n)
    (read : scalar? token = some s) :
    ∃ x : Double, s = .number (.double x) ∧
      (n.natAbs < significandLimit → x.toInt? = some (nearestWhole n)) ∧
      (n = 0 → x = ⟨true, .zero⟩) := by
  obtain ⟨_, _, _, -, means, -⟩ := literal.exists_numeral
  obtain ⟨k, -, rfl⟩ := Option.map_eq_some_iff.1 (means.symm.trans read)
  cases k with
  | whole m fits => exact absurd (staysWhole_of_scalar? literal read) drifts
  | double x =>
      refine ⟨x, rfl, fun bits => ?_, fun zero => ?_⟩
      · obtain ⟨k, y, known, stored, value⟩ := exists_number_of_literal literal bits
        cases read.symm.trans known
        cases stored
        exact value
      · subst zero
        have signed : token ≠ [Ascii.zero] := fun same => drifts ⟨by decide, .inr same⟩
        cases read.symm.trans (scalar?_minusZero literal signed)
        rfl

end JsonSelect.Json
