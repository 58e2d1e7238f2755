/-
# JsonSelect.Proofs.Number.Written -- the numeral of a written magnitude

What is written for a magnitude is read into a significand and a power of ten that make the
shortest decimal again, wherever the point stands.  All digits fit in the significand, since
there are 17 of them or the point stands behind the sixteenth.

* `Json.takeDigits_encode`: figures are read into the number that they are.
* `DecimalFormat.reads_decimal`: the numeral of a written decimal has its value.
* `Magnitude.exists_shows`: so the numeral of a written magnitude is rounded to it.
-/
import JsonSelect.Proofs.Json.Reading.Numeral
import JsonSelect.Proofs.Number.Shortest

namespace JsonSelect

set_option autoImplicit false

open Json

/-! ## Figures -/

/-- The number that figures make behind `value`. -/
abbrev figuresValue (cs : List Char) (value : Nat) : Nat := Nat.ofDigitChars 10 cs value

theorem le_figuresValue (cs : List Char) (value : Nat) : value ≤ figuresValue cs value := by
  induction cs generalizing value with
  | nil => exact Nat.le_of_eq Nat.ofDigitChars_nil.symm
  | cons c cs ih =>
      rw [figuresValue, Nat.ofDigitChars_cons]
      have more := ih (10 * value + (c.toNat - '0'.toNat))
      unfold figuresValue at more
      omega

theorem figuresValue_lt {cs : List Char} (figures : AllFigures cs) (value : Nat) :
    figuresValue cs value < (value + 1) * 10 ^ cs.length := by
  induction cs generalizing value with
  | nil => simp [figuresValue]
  | cons c cs ih =>
      obtain ⟨figure, more⟩ := List.forall_mem_cons.1 figures
      have range := Char.isDigit_iff_toNat.1 figure
      have next : 10 * value + (c.toNat - '0'.toNat) + 1 ≤ 10 * (value + 1) := by
        have zero : '0'.toNat = 48 := rfl
        have nine : '9'.toNat = 57 := rfl
        omega
      rw [figuresValue, Nat.ofDigitChars_cons, List.length_cons, Nat.pow_succ]
      apply Nat.lt_of_lt_of_le (ih more _)
      calc (10 * value + (c.toNat - '0'.toNat) + 1) * 10 ^ cs.length
          ≤ 10 * (value + 1) * 10 ^ cs.length := Nat.mul_le_mul_right _ next
        _ = (value + 1) * (10 ^ cs.length * 10) := by ring

namespace Json

/-- Figures are digits that make the same number. -/
theorem digitsValue_encode {cs : List Char} (figures : AllFigures cs) (value : Nat) :
    digitsValue value (Utf8.encode cs) = figuresValue cs value ∧
      (Utf8.encode cs).length = cs.length := by
  induction cs generalizing value with
  | nil => exact ⟨Nat.ofDigitChars_nil.symm, rfl⟩
  | cons c cs ih =>
      obtain ⟨figure, more⟩ := List.forall_mem_cons.1 figures
      obtain ⟨b, encoded, digit, same, -⟩ := encode_figure figure cs
      obtain ⟨rest, length⟩ := ih more (value * 10 + digitValue b)
      have first : figuresValue (c :: cs) value = figuresValue cs (value * 10 + digitValue b) := by
        rw [figuresValue, Nat.ofDigitChars_cons, Nat.mul_comm, ← same]
      exact ⟨by rw [encoded, digitsValue_cons, rest, first],
        by rw [encoded, List.length_cons, length, List.length_cons]⟩

/-- Figures are read into their number as long as it stays below the limit. -/
theorem takeDigits_encode {limit : Nat} {cs : List Char} (figures : AllFigures cs) (value : Nat)
    (fits : figuresValue cs value < limit) :
    takeDigits limit value (Utf8.encode cs) = ⟨figuresValue cs value, cs.length, []⟩ := by
  obtain ⟨same, length⟩ := digitsValue_encode figures value
  rw [← same] at fits ⊢
  rw [takeDigits_all (allDigits_encode figures) fits, length]

variable {c : Char} {cs : List Char} {rest : List UInt8}

/-- All figures of the whole part are taken. -/
theorem wholePart_encode (figures : AllFigures (c :: cs)) (nonzero : c ≠ '0')
    (fits : figuresValue (c :: cs) 0 < significandLimit) (ends : NoDigit rest) :
    wholePart (Utf8.encode (c :: cs) ++ rest) =
      .ok (⟨figuresValue (c :: cs) 0, 0, true⟩, rest) := by
  have same := (digitsValue_encode figures 0).1
  rw [← same] at fits ⊢
  exact wholePart_whole (isWhole_encode figures nonzero) fits ends

theorem wholePart_zero (ends : NoDigit rest) :
    wholePart (Ascii.zero :: rest) = .ok (⟨0, 0, true⟩, rest) :=
  wholePart_whole .zero (by decide) ends

/-- All figures of the fraction are taken. -/
theorem fractionPart_encode {n : Numeral} (figures : AllFigures (c :: cs))
    (fits : figuresValue (c :: cs) n.significand < significandLimit) (ends : NoDigit rest) :
    fractionPart n (Utf8.encode ('.' :: c :: cs) ++ rest) =
      .ok (⟨figuresValue (c :: cs) n.significand, n.power - (c :: cs).length, false⟩, rest) := by
  obtain ⟨figure, more⟩ := List.forall_mem_cons.1 figures
  obtain ⟨b, encoded, digit, -⟩ := encode_figure figure cs
  have taken := takeDigits_append significandLimit n.significand (allDigits_encode figures) ends
  rw [takeDigits_encode figures _ fits, encoded] at taken
  have kept : skipDigits rest = rest := skipDigits_append (List.forall_mem_nil _) ends
  rw [Utf8.encode_cons, encoded]
  show fractionPart n (Ascii.point :: b :: (Utf8.encode cs ++ rest)) = _
  rw [List.cons_append] at taken
  simp [fractionPart, digit, taken, kept]

/-- An exponent adds its number to the power of ten. -/
theorem exponentPart_encode {n : Numeral} {sign : Char} (signs : sign = '-' ∨ sign = '+')
    (figures : AllFigures (c :: cs)) (fits : figuresValue (c :: cs) 0 < exponentLimit) :
    exponentPart n (Utf8.encode ('e' :: sign :: c :: cs)) =
      .ok (⟨n.significand, if sign = '-' then n.power - figuresValue (c :: cs) 0
        else n.power + figuresValue (c :: cs) 0, false⟩, []) := by
  obtain ⟨figure, more⟩ := List.forall_mem_cons.1 figures
  obtain ⟨b, encoded, digit, same, -⟩ := encode_figure figure cs
  rw [figuresValue, Nat.ofDigitChars_cons, Nat.mul_zero, Nat.zero_add, ← same] at fits ⊢
  have taken := takeDigits_encode more _ fits
  have digits (negative : Bool) : exponentDigits n negative (b :: Utf8.encode cs) =
      .ok (⟨n.significand, if negative then n.power - figuresValue cs (digitValue b)
        else n.power + figuresValue cs (digitValue b), false⟩, []) := by
    simp [exponentDigits, digit, taken, skipDigits]
  rw [Utf8.encode_cons, Utf8.encode_cons, encoded]
  rcases signs with rfl | rfl
  · show exponentPart n (Ascii.lowerE :: ([Ascii.minus] ++ b :: Utf8.encode cs)) = _
    rw [exponentPart_of_mark n (.inl rfl) (by decide) digit]
    exact digits true
  · show exponentPart n (Ascii.lowerE :: ([Ascii.plus] ++ b :: Utf8.encode cs)) = _
    rw [exponentPart_of_mark n (.inl rfl) (by decide) digit]
    exact digits false

/-! ## Numerals -/

theorem fractionPart_of_noFraction {n : Numeral} (ends : NoFraction rest) :
    fractionPart n rest = .ok (n, rest) := by
  cases rest with
  | nil => rfl
  | cons b rest => simp [fractionPart, noFraction_cons_iff.1 ends]

/-- Figures with a point among them are read into the number without the point, and what is
behind the point is counted. -/
theorem readNumeral_point {d : Char} {ds : List Char} (whole : AllFigures (c :: cs))
    (nonzero : c ≠ '0') (fraction : AllFigures (d :: ds))
    (fits : figuresValue (c :: cs ++ d :: ds) 0 < significandLimit) :
    readNumeral (Utf8.encode (c :: cs ++ '.' :: d :: ds)) =
      .ok (⟨figuresValue (c :: cs ++ d :: ds) 0, -((d :: ds).length : Int), false⟩, []) := by
  have ends : NoDigit (Utf8.encode ('.' :: d :: ds)) := by
    rw [Utf8.encode_cons]
    exact noDigit_cons_iff.2 rfl
  rw [figuresValue, Nat.ofDigitChars_append] at fits ⊢
  have smaller := Nat.lt_of_le_of_lt (le_figuresValue (d :: ds) _) fits
  have first := wholePart_encode whole nonzero smaller ends
  have second := @fractionPart_encode d ds [] ⟨figuresValue (c :: cs) 0, 0, true⟩ fraction fits
    endsNumeral_nil.1.1
  rw [List.append_nil] at second
  rw [Utf8.encode_append, readNumeral, first, ok_bind]
  dsimp only
  rw [second, ok_bind, Int.zero_sub]
  rfl

/-- The same behind a zero. -/
theorem readNumeral_zero_point (fraction : AllFigures (c :: cs))
    (fits : figuresValue (c :: cs) 0 < significandLimit) :
    readNumeral (Utf8.encode ('0' :: '.' :: c :: cs)) =
      .ok (⟨figuresValue (c :: cs) 0, -((c :: cs).length : Int), false⟩, []) := by
  have ends : NoDigit (Utf8.encode ('.' :: c :: cs)) := by
    rw [Utf8.encode_cons]
    exact noDigit_cons_iff.2 rfl
  have second := @fractionPart_encode c cs [] ⟨0, 0, true⟩ fraction fits endsNumeral_nil.1.1
  rw [List.append_nil] at second
  rw [Utf8.encode_cons]
  show readNumeral (Ascii.zero :: Utf8.encode ('.' :: c :: cs)) = _
  rw [readNumeral, wholePart_zero ends, ok_bind]
  dsimp only
  rw [second, ok_bind, Int.zero_sub]
  rfl

theorem noFraction_exponent (t : List Char) : NoFraction (Utf8.encode ('e' :: t)) := by
  rw [Utf8.encode_cons]
  exact noFraction_cons_iff.2 (by decide)

/-- A power of ten behind its mark is added. -/
theorem exponentPart_power {n : Numeral} {power : Int} (small : power.natAbs < exponentLimit) :
    exponentPart n (Utf8.encode ('e' :: (if power < 0 then '-' else '+') ::
        Decimal.figures power.natAbs)) = .ok (⟨n.significand, n.power + power, false⟩, []) := by
  have figures := Decimal.allFigures_figures power.natAbs
  have value : figuresValue (Decimal.figures power.natAbs) 0 = power.natAbs :=
    Nat.ofDigitChars_ten_toDigits
  obtain ⟨c, cs, shape⟩ : ∃ c cs, Decimal.figures power.natAbs = c :: cs :=
    List.exists_cons_of_ne_nil Nat.toDigits_ne_nil
  rw [shape] at figures value ⊢
  rw [← value] at small
  by_cases negative : power < 0
  · rw [if_pos negative, exponentPart_encode (.inl rfl) figures small, if_pos rfl, value]
    congr 3
    omega
  · rw [if_neg negative, exponentPart_encode (.inr rfl) figures small, if_neg (by decide), value]
    congr 3
    omega

/-- One digit with a power of ten. -/
theorem readNumeral_exponent {power : Int} (figure : c.isDigit = true) (nonzero : c ≠ '0')
    (small : power.natAbs < exponentLimit) (fits : figuresValue [c] 0 < significandLimit) :
    readNumeral (Utf8.encode (DecimalFormat.withExponent [c] power)) =
      .ok (⟨figuresValue [c] 0, power, false⟩, []) := by
  have ends := noFraction_exponent ((if power < 0 then '-' else '+') ::
    Decimal.figures power.natAbs)
  have shape : DecimalFormat.withExponent [c] power =
      [c] ++ 'e' :: (if power < 0 then '-' else '+') :: Decimal.figures power.natAbs := rfl
  have first := wholePart_encode (List.forall_mem_singleton.2 figure) nonzero fits ends.1
  rw [shape, Utf8.encode_append, readNumeral, first, ok_bind]
  dsimp only
  rw [fractionPart_of_noFraction ends, ok_bind]
  dsimp only
  rw [exponentPart_power small, Int.zero_add]

/-- One digit, more behind the point, and a power of ten. -/
theorem readNumeral_point_exponent {d : Char} {ds : List Char} {power : Int}
    (figure : c.isDigit = true) (nonzero : c ≠ '0') (fraction : AllFigures (d :: ds))
    (small : power.natAbs < exponentLimit)
    (fits : figuresValue (c :: d :: ds) 0 < significandLimit) :
    readNumeral (Utf8.encode (DecimalFormat.withExponent (c :: d :: ds) power)) =
      .ok (⟨figuresValue (c :: d :: ds) 0, -((d :: ds).length : Int) + power, false⟩, []) := by
  have ends := noFraction_exponent ((if power < 0 then '-' else '+') ::
    Decimal.figures power.natAbs)
  have shape : DecimalFormat.withExponent (c :: d :: ds) power =
      [c] ++ ('.' :: d :: ds ++ 'e' :: (if power < 0 then '-' else '+') ::
        Decimal.figures power.natAbs) := rfl
  have point : NoDigit (Utf8.encode ('.' :: d :: ds ++ 'e' :: (if power < 0 then '-' else '+') ::
      Decimal.figures power.natAbs)) := by
    rw [List.cons_append, Utf8.encode_cons]
    exact noDigit_cons_iff.2 rfl
  have split : figuresValue (c :: d :: ds) 0 = figuresValue (d :: ds) (figuresValue [c] 0) :=
    @Nat.ofDigitChars_append 10 [c] (d :: ds) 0
  rw [split] at fits ⊢
  have smaller := Nat.lt_of_le_of_lt (le_figuresValue (d :: ds) _) fits
  have first := wholePart_encode (List.forall_mem_singleton.2 figure) nonzero smaller point
  have second := @fractionPart_encode d ds _ ⟨figuresValue [c] 0, 0, true⟩ fraction fits ends.1
  rw [shape, Utf8.encode_append, readNumeral, first, ok_bind]
  dsimp only
  rw [Utf8.encode_append, second, ok_bind]
  dsimp only
  rw [exponentPart_power small, Int.zero_sub]

end Json

namespace Decimal

/-! ## Decimals without zeros at the end -/

/-- The figures of a decimal are the significant ones and zeros. -/
theorem exists_figures_eq (d : Decimal) :
    ∃ zeros, figures d.digits = d.significant ++ List.replicate zeros '0' := by
  have split := List.takeWhile_append_dropWhile (p := (· = '0')) (l := (figures d.digits).reverse)
  have zeros : ∀ c ∈ (figures d.digits).reverse.takeWhile (· = '0'), c = '0' := by
    intro c taken
    have passed := List.all_takeWhile (p := (· = '0')) (l := (figures d.digits).reverse)
    simpa using List.all_eq_true.1 passed c taken
  refine ⟨((figures d.digits).reverse.takeWhile (· = '0')).length, ?_⟩
  have trailing := congrArg List.reverse (List.eq_replicate_of_mem zeros)
  have reversed := congrArg List.reverse split
  rw [List.reverse_replicate] at trailing
  rw [List.reverse_append, List.reverse_reverse, trailing] at reversed
  exact reversed.symm

/-- The significant figures with the power of ten of the first one have the value. -/
theorem value_eq_significant (d : Decimal) :
    figuresValue d.significant 0 ≤ d.digits ∧
      (d.digits : ℚ) * 10 ^ d.exponent =
        figuresValue d.significant 0 *
          10 ^ (d.scientificExponent + 1 - (d.significant.length : Int)) := by
  obtain ⟨zeros, shape⟩ := exists_figures_eq d
  have digits : d.digits = 10 ^ zeros * figuresValue d.significant 0 := by
    have whole := @Nat.ofDigitChars_ten_toDigits d.digits
    rw [show Nat.toDigits 10 d.digits = _ from shape, Nat.ofDigitChars_append,
      Nat.ofDigitChars_replicate_zero] at whole
    exact whole.symm
  have power : d.scientificExponent + 1 - (d.significant.length : Int) = d.exponent + zeros := by
    rw [scientificExponent, shape, List.length_append, List.length_replicate]
    omega
  constructor
  · rw [digits]
    exact Nat.le_mul_of_pos_left _ (Nat.pow_pos (by decide))
  · rw [power, zpow_add₀ (by norm_num), zpow_natCast, digits]
    push_cast
    ring

/-- A decimal is between the power of ten of its first digit and the next one. -/
theorem scientificExponent_bounds {d : Decimal} (nonzero : d.digits ≠ 0) :
    (10 : ℚ) ^ d.scientificExponent * Magnitude.unitsPerOne ≤ d.inUnits ∧
      d.inUnits < 10 ^ (d.scientificExponent + 1) * Magnitude.unitsPerOne := by
  obtain ⟨length, counted⟩ : ∃ length, (figures d.digits).length = length + 1 :=
    Nat.exists_eq_add_one_of_ne_zero (Nat.ne_of_gt Nat.length_toDigits_pos)
  obtain ⟨lower, upper⟩ := ten_pow_le_of_length_figures (Nat.pos_of_ne_zero nonzero) counted
  have power : d.scientificExponent = length + d.exponent := by
    rw [scientificExponent, counted]
    omega
  have next : d.scientificExponent + 1 = (length + 1 : Nat) + d.exponent := by omega
  have lower : (10 : ℚ) ^ length ≤ d.digits := by exact_mod_cast lower
  have upper : (d.digits : ℚ) < 10 ^ (length + 1) := by exact_mod_cast upper
  have scale := ten_zpow_pos d.exponent
  have one := unitsPerOne_cast_pos
  rw [next, power, zpow_add₀ (by norm_num), zpow_add₀ (by norm_num), zpow_natCast, zpow_natCast,
    inUnits]
  constructor
  · exact mul_le_mul_of_nonneg_right (mul_le_mul_of_nonneg_right lower (le_of_lt scale))
      (le_of_lt one)
  · exact mul_lt_mul_of_pos_right (mul_lt_mul_of_pos_right upper scale) one

end Decimal

namespace DecimalFormat

variable {c : Char} {more : List Char}

/-- A numeral with the value `significand * 10 ^ power`, whose significand has 17 digits at
most or is a power of ten. -/
def Reads (text : List Char) (value : ℚ) : Prop :=
  ∃ n : Numeral, readNumeral (Utf8.encode text) = .ok (n, []) ∧ n.whole = false ∧
    n.significand ≤ 10 ^ 17 ∧ (n.significand : ℚ) * 10 ^ n.power = value

theorem lt_significandLimit {n : Nat} (few : n ≤ 10 ^ 17) : n < significandLimit :=
  Nat.lt_of_le_of_lt few (by decide)

/-- Where the figures end in front of the point, zeros fill the gap and one stands behind it. -/
theorem reads_pointAfter_of_short {count : Nat} (nonzero : c ≠ '0')
    (figures : AllFigures (c :: more)) (within : count ≤ 15)
    (short : (c :: more).length ≤ count + 1) :
    Reads (pointAfter (count + 1) (c :: more))
      (figuresValue (c :: more) 0 * 10 ^ ((count : Int) + 1 - ((c :: more).length : Int))) := by
  obtain ⟨gap, filled⟩ := Nat.exists_eq_add_of_le short
  have shape : pointAfter (count + 1) (c :: more) =
      c :: (more ++ List.replicate gap '0') ++ '.' :: ['0'] := by
    rw [pointAfter, List.take_of_length_le short, if_pos short, filled, Nat.add_sub_cancel_left]
    rfl
  have whole : AllFigures (c :: (more ++ List.replicate gap '0')) := by
    apply List.forall_mem_append.2 (⟨figures, _⟩ : AllFigures (c :: more) ∧ _)
    intro d zero
    rw [List.eq_of_mem_replicate zero]
    rfl
  have value : figuresValue (c :: (more ++ List.replicate gap '0') ++ ['0']) 0 =
      10 * (10 ^ gap * figuresValue (c :: more) 0) := by
    rw [← List.cons_append, figuresValue, Nat.ofDigitChars_append, Nat.ofDigitChars_append,
      Nat.ofDigitChars_replicate_zero, Nat.ofDigitChars_cons]
    rfl
  have few : figuresValue (c :: (more ++ List.replicate gap '0') ++ ['0']) 0 ≤ 10 ^ 17 := by
    have digits := figuresValue_lt figures 0
    have places : 10 ^ (c :: more).length * 10 ^ gap ≤ 10 ^ 16 := by
      rw [← Nat.pow_add, ← filled]
      exact Nat.pow_le_pow_right (by decide) (by omega)
    have product : 10 ^ gap * figuresValue (c :: more) 0 ≤ 10 ^ gap * 10 ^ (c :: more).length := by
      apply Nat.mul_le_mul_left
      omega
    rw [value]
    rw [Nat.mul_comm] at places
    omega
  have power : (count : Int) + 1 - ((c :: more).length : Int) = gap := by omega
  rw [shape]
  refine ⟨_, readNumeral_point whole nonzero (by decide) (lt_significandLimit few), rfl, few, ?_⟩
  dsimp only
  rw [power, value, zpow_natCast]
  push_cast
  norm_num
  ring

/-- Where there are more figures, the point stands among them. -/
theorem reads_pointAfter_of_long {count : Nat} (nonzero : c ≠ '0')
    (figures : AllFigures (c :: more)) (few : figuresValue (c :: more) 0 ≤ 10 ^ 17)
    (long : count + 1 < (c :: more).length) :
    Reads (pointAfter (count + 1) (c :: more))
      (figuresValue (c :: more) 0 * 10 ^ ((count : Int) + 1 - ((c :: more).length : Int))) := by
  obtain ⟨figure, others⟩ := List.forall_mem_cons.1 figures
  rw [List.length_cons] at long
  have left : more.drop count ≠ [] := by
    rw [ne_eq, List.drop_eq_nil_iff]
    omega
  obtain ⟨d, ds, dropped⟩ := List.exists_cons_of_ne_nil left
  have counted : (d :: ds).length = more.length - count := by rw [← dropped, List.length_drop]
  have shape : pointAfter (count + 1) (c :: more) = c :: more.take count ++ '.' :: d :: ds := by
    rw [pointAfter, List.take_succ_cons, List.drop_succ_cons, dropped, List.length_cons,
      if_neg (by omega), Nat.sub_eq_zero_of_le (by omega), List.replicate_zero, List.append_nil]
  have joined : c :: more.take count ++ d :: ds = c :: more := by
    rw [← dropped, List.cons_append, List.take_append_drop]
  have whole : AllFigures (c :: more.take count) :=
    List.forall_mem_cons.2 ⟨figure, fun e taken => others e (List.mem_of_mem_take taken)⟩
  have fraction : AllFigures (d :: ds) := by
    intro e member
    rw [← dropped] at member
    exact others e (List.mem_of_mem_drop member)
  rw [shape]
  rw [← joined] at few
  refine ⟨_, readNumeral_point whole nonzero fraction (lt_significandLimit few), rfl, few, ?_⟩
  dsimp only
  rw [joined, counted, List.length_cons]
  congr 2
  omega

theorem reads_pointAfter {count : Nat} (nonzero : c ≠ '0') (figures : AllFigures (c :: more))
    (within : count ≤ 15) (few : figuresValue (c :: more) 0 ≤ 10 ^ 17) :
    Reads (pointAfter (count + 1) (c :: more))
      (figuresValue (c :: more) 0 * 10 ^ ((count : Int) + 1 - ((c :: more).length : Int))) := by
  by_cases short : (c :: more).length ≤ count + 1
  · exact reads_pointAfter_of_short nonzero figures within short
  · exact reads_pointAfter_of_long nonzero figures few (Nat.lt_of_not_le short)

theorem reads_pointBefore {count : Nat} (figures : AllFigures (c :: more))
    (few : figuresValue (c :: more) 0 ≤ 10 ^ 17) :
    Reads (pointBefore count (c :: more))
      (figuresValue (c :: more) 0 * 10 ^ (-(count : Int) - ((c :: more).length : Int))) := by
  have fraction : AllFigures (List.replicate count '0' ++ c :: more) := by
    apply List.forall_mem_append.2 (⟨_, figures⟩ : _ ∧ AllFigures (c :: more))
    intro d zero
    rw [List.eq_of_mem_replicate zero]
    rfl
  have value : figuresValue (List.replicate count '0' ++ c :: more) 0 =
      figuresValue (c :: more) 0 := by
    rw [figuresValue, Nat.ofDigitChars_append, Nat.ofDigitChars_replicate_zero, Nat.mul_zero]
  have counted : (List.replicate count '0' ++ c :: more).length = count + (c :: more).length := by
    rw [List.length_append, List.length_replicate]
  obtain ⟨d, ds, first⟩ : ∃ d ds, List.replicate count '0' ++ c :: more = d :: ds :=
    List.exists_cons_of_ne_nil (by simp)
  rw [← value] at few ⊢
  rw [pointBefore]
  rw [first] at fraction few counted ⊢
  refine ⟨_, readNumeral_zero_point fraction (lt_significandLimit few), rfl, few, ?_⟩
  dsimp only
  rw [counted]
  congr 2
  omega

theorem reads_withExponent {power : Int} (nonzero : c ≠ '0') (figures : AllFigures (c :: more))
    (few : figuresValue (c :: more) 0 ≤ 10 ^ 17) (small : power.natAbs < exponentLimit) :
    Reads (withExponent (c :: more) power)
      (figuresValue (c :: more) 0 * 10 ^ (power + 1 - ((c :: more).length : Int))) := by
  obtain ⟨figure, others⟩ := List.forall_mem_cons.1 figures
  cases more with
  | nil =>
      refine ⟨_, readNumeral_exponent figure nonzero small (lt_significandLimit few), rfl, few, ?_⟩
      simp
  | cons d ds =>
      refine ⟨_, readNumeral_point_exponent figure nonzero others small (lt_significandLimit few),
        rfl, few, ?_⟩
      simp only [List.length_cons]
      congr 2
      push_cast
      ring

/-- What is written for a decimal is read as its value. -/
theorem reads_decimal {d : Decimal} (nonzero : d.digits ≠ 0) (few : d.digits ≤ 10 ^ 17)
    (small : d.scientificExponent.natAbs < exponentLimit) :
    Reads (json.decimal d) (d.digits * 10 ^ d.exponent) := by
  obtain ⟨c, more, significant, first, figures⟩ := Decimal.exists_significant_eq_cons nonzero
  obtain ⟨fewer, value⟩ := d.value_eq_significant
  rw [significant] at fewer value
  have few := Nat.le_trans fewer few
  rw [value, decimal, significant]
  split
  · rename_i within
    cases power : d.scientificExponent with
    | ofNat count =>
        have upper := within.2
        rw [power] at upper
        exact reads_pointAfter first figures (Int.ofNat_le.1 upper) few
    | negSucc count =>
        have same : Int.negSucc count + 1 = -(count : Int) := by omega
        rw [same]
        exact reads_pointBefore figures few
  · exact reads_withExponent first figures few small

end DecimalFormat

namespace Magnitude

/-! ## Powers of ten in range -/

section powers

variable {q : ℚ} {x : Magnitude} {p : Int}

/-- A power of ten that is not past the largest magnitude. -/
theorem power_le (within : (10 : ℚ) ^ p * unitsPerOne ≤ overflow) : p ≤ 308 := by
  obtain ⟨k, known, past⟩ : ∃ k, k = 309 ∧ overflow < Nat.pow 10 k * unitsPerOne := by
    refine ⟨_, rfl, ?_⟩
    decide +kernel
  have past : (overflow : ℚ) < (Nat.pow 10 k : Nat) * unitsPerOne := by exact_mod_cast past
  apply Int.le_of_lt_add_one
  apply lt_of_not_ge
  intro more
  have powers : ((Nat.pow 10 k : Nat) : ℚ) ≤ 10 ^ p := by
    rw [Decimal.natCast_pow_ten, ← zpow_natCast]
    exact zpow_le_zpow_right₀ (by norm_num) (by omega)
  have product := mul_le_mul_of_nonneg_right powers (le_of_lt Decimal.unitsPerOne_cast_pos)
  linarith

/-- A power of ten that is not below half of the smallest magnitude. -/
theorem le_power (within : 1 / 2 ≤ (10 : ℚ) ^ p * unitsPerOne) : -324 ≤ p := by
  obtain ⟨k, known, below⟩ : ∃ k, k = 325 ∧ unitsPerOne * 2 < Nat.pow 10 k := by
    refine ⟨_, rfl, ?_⟩
    decide +kernel
  have below : (unitsPerOne : ℚ) * 2 < (Nat.pow 10 k : Nat) := by exact_mod_cast below
  apply Int.le_of_lt_add_one
  apply lt_of_not_ge
  intro less
  have powers : (10 : ℚ) ^ p * (Nat.pow 10 k : Nat) ≤ 1 := by
    rw [Decimal.natCast_pow_ten, ← zpow_natCast, ← zpow_add₀ (by norm_num), ← zpow_zero (10 : ℚ)]
    exact zpow_le_zpow_right₀ (by norm_num) (by omega)
  have product := mul_le_mul_of_nonneg_right powers (le_of_lt Decimal.unitsPerOne_cast_pos)
  have half := mul_le_mul_of_nonneg_right within (le_of_lt (Decimal.natCast_pow_ten_pos k))
  linarith

/-- What is rounded to a magnitude other than zero is half a unit at least. -/
theorem RoundsTo.half_le (rounds : RoundsTo q x) (nonzero : x ≠ .zero) : 1 / 2 ≤ q := by
  have near := abs_le.1 rounds.abs_sub_le
  have one : (1 : ℚ) ≤ 2 ^ x.shift := one_le_pow₀ one_le_two
  have significand : (1 : ℚ) ≤ x.significand := by
    have positive := Decimal.units_pos nonzero
    rw [units_eq] at positive
    exact_mod_cast Nat.pos_of_mul_pos_right positive
  have units : (2 : ℚ) ^ x.shift ≤ x.units := by
    rw [units_cast]
    exact le_mul_of_one_le_left (le_of_lt (two_pow_pos _)) significand
  linarith

end powers

/-! ## Written magnitudes -/

/-- What is written for a magnitude. -/
def text (x : Magnitude) : List Char :=
  if x = .zero then ['0', '.', '0'] else DecimalFormat.json.decimal (.shortest x)

/-- The significand and the power of ten that the text of the magnitude shows. -/
def Shows (x : Magnitude) (n : Numeral) : Prop :=
  readNumeral (Utf8.encode x.text) = .ok (n, [])

theorem shows_zero : Shows .zero ⟨0, -1, false⟩ := by
  have fits : figuresValue ['0'] 0 < significandLimit := by decide
  exact readNumeral_zero_point (by decide) fits

theorem Shows.unique {x : Magnitude} {n m : Numeral} (left : x.Shows n) (right : x.Shows m) :
    n = m := by
  cases left.symm.trans right
  rfl

/-- The power of ten of the first digit of a magnitude has three digits at most. -/
theorem natAbs_scientificExponent_shortest_lt {x : Magnitude} (nonzero : x ≠ .zero) :
    (Decimal.shortest x).scientificExponent.natAbs < exponentLimit := by
  have rounds := Decimal.readsBack_iff.1 (Decimal.shortest_spec nonzero).1
  obtain ⟨lower, upper⟩ := Decimal.scientificExponent_bounds (Decimal.shortest_ne_zero nonzero)
  have most := power_le (le_trans lower rounds.le_overflow)
  have least := le_power (le_trans (rounds.half_le nonzero) (le_of_lt upper))
  unfold exponentLimit
  omega

/-- The significand and the power of ten that are shown are rounded to the magnitude. -/
theorem exists_shows {x : Magnitude} (nonzero : x ≠ .zero) :
    ∃ n : Numeral, x.Shows n ∧ n.whole = false ∧ n.significand ≤ 10 ^ 17 ∧
      RoundsTo (n.significand * 10 ^ n.power * unitsPerOne) x := by
  obtain ⟨reads, few⟩ := Decimal.shortest_spec nonzero
  obtain ⟨n, read, whole, digits, value⟩ := DecimalFormat.reads_decimal
    (Decimal.shortest_ne_zero nonzero) few (natAbs_scientificExponent_shortest_lt nonzero)
  refine ⟨n, ?_, whole, digits, ?_⟩
  · rw [Shows, text, if_neg nonzero]
    exact read
  · rw [value]
    exact Decimal.readsBack_iff.1 reads

end Magnitude

theorem Number.text_double (x : Double) :
    (Number.double x).text =
      if x.negative then '-' :: x.magnitude.text else x.magnitude.text := by
  rw [Number.text, DecimalFormat.double, Magnitude.text]

end JsonSelect
