/-
# JsonSelect.Proofs.Number.Text -- the text of a number is a numeral

* `Decimal.shortest_ne_zero`: the shortest decimal of a magnitude other than zero has a
  digit other than zero, so its first significant digit is none.
* `Number.isNumeral_text`: the text of every number is in the grammar of numerals, with the
  point after the digits, before them or behind the first one.
-/
import JsonSelect.Number.Basic
import JsonSelect.Proofs.Json.Grammar

namespace JsonSelect

set_option autoImplicit false

/-! ## Figures -/

def AllFigures (cs : List Char) : Prop := ∀ c ∈ cs, c.isDigit = true

instance (cs : List Char) : Decidable (AllFigures cs) := List.decidableBAll _ cs

namespace Decimal

theorem allFigures_figures (n : Nat) : AllFigures (figures n) :=
  fun _ member => Nat.isDigit_of_mem_toDigits (by decide) (by decide) member

/-- The first digit of a number other than zero is none. -/
theorem exists_figures_eq_cons {n : Nat} (nonzero : n ≠ 0) :
    ∃ c more, figures n = c :: more ∧ c ≠ '0' := by
  -- The first digit of `n` is that of `n / 10`, which is zero only if `n` is a digit.
  induction n using Nat.strongRecOn with
  | _ n ih =>
      by_cases small : n < 10
      · have digit : ∀ k < 10, k ≠ 0 → Nat.digitChar k ≠ '0' := by decide
        exact ⟨_, [], Nat.toDigits_of_lt_base small, digit n small nonzero⟩
      · obtain ⟨c, more, leading, first⟩ := ih (n / 10) (by omega) (by omega)
        refine ⟨c, more ++ [(n % 10).digitChar], ?_, first⟩
        rw [figures, Nat.toDigits_of_base_le (by decide) (by omega)]
        rw [figures] at leading
        rw [leading, List.cons_append]

/-- Leaving out the zeros at the end keeps the first digit. -/
theorem exists_significant_eq_cons {d : Decimal} (nonzero : d.digits ≠ 0) :
    ∃ c more, d.significant = c :: more ∧ c ≠ '0' ∧ AllFigures (c :: more) := by
  obtain ⟨c, cs, all, first⟩ := exists_figures_eq_cons nonzero
  have kept : [c].dropWhile (· = '0') = [c] := by simp [first]
  have shape : d.significant = c :: (cs.reverse.dropWhile (· = '0')).reverse := by
    rw [significant, all, List.reverse_cons, List.dropWhile_append, kept]
    split
    · rename_i empty
      rw [List.isEmpty_iff.1 empty]
      rfl
    · rw [List.reverse_append]
      rfl
  refine ⟨c, _, shape, first, fun e member => allFigures_figures d.digits e ?_⟩
  rw [all]
  rcases List.mem_cons.1 member with rfl | later
  · exact List.mem_cons_self
  · have inside := (List.dropWhile_sublist _).subset (List.mem_reverse.1 later)
    exact List.mem_cons_of_mem _ (List.mem_reverse.1 inside)

end Decimal

/-! ## The shortest decimal -/

namespace Magnitude

theorem ofFraction?_zero (den : Nat) : ofFraction? 0 den = some .zero := by
  have rounded {significand shift : Nat} (none : significand = 0) (unshifted : shift = 0)
      (upper : significand ≤ 0x20000000000000)
      (lower : shift = 0 ∨ 0x10000000000000 ≤ significand) :
      ofRounded? significand shift upper lower = some .zero := by
    subst none
    subst unshifted
    rfl
  have unrounded (den : Nat) : roundHalfEven 0 den = 0 := by
    have even : 2 * 0 < den ∨ 2 * 0 = den ∧ 0 % 2 = 0 := by omega
    rw [roundHalfEven, Nat.zero_div, Nat.zero_mod]
    exact if_pos even
  have small : shiftFor (0 / den) = 0 := by
    rw [Nat.zero_div]
    rfl
  rw [ofFraction?, Nat.zero_mul]
  unfold ofUnits?
  exact rounded (unrounded _) small ..

theorem units_ne_zero {x : Magnitude} (nonzero : x ≠ .zero) : x.units ≠ 0 := by
  intro none
  have insignificant : x.significand = 0 := by
    rw [units, Nat.shiftLeft_eq] at none
    exact (Nat.mul_eq_zero.1 none).resolve_right (Nat.ne_of_gt (Nat.two_pow_pos _))
  obtain ⟨significand, shift, _, _, normal⟩ := x
  cases insignificant
  have unshifted : shift = 0 := normal.resolve_right (by decide)
  cases unshifted
  exact nonzero rfl

end Magnitude

namespace Decimal

theorem eq_zero_of_readsBack {d : Decimal} {x : Magnitude} (none : d.digits = 0)
    (reads : d.ReadsBack x) : x = .zero := by
  obtain ⟨digits, exponent⟩ := d
  subst none
  cases exponent with
  | ofNat n =>
      rw [ReadsBack, Magnitude.nearestDecimal?, Nat.zero_mul, Magnitude.ofFraction?_zero] at reads
      exact (Option.some.inj reads).symm
  | negSucc n =>
      rw [ReadsBack, Magnitude.nearestDecimal?, Magnitude.ofFraction?_zero] at reads
      exact (Option.some.inj reads).symm

theorem onGrid?_ne_zero {x : Magnitude} (nonzero : x ≠ .zero) {exponent : Int} {d : Decimal}
    (found : onGrid? x exponent = some d) : d.digits ≠ 0 := by
  simp only [onGrid?] at found
  intro none
  split at found
  · rename_i below _
    cases found
    have least := div_le_roundHalfEven (scaled x exponent).1 (scaled x exponent).2
    have none : roundHalfEven (scaled x exponent).1 (scaled x exponent).2 = 0 := none
    have below_none : (scaled x exponent).1 / (scaled x exponent).2 = 0 :=
      Nat.eq_zero_of_le_zero (Nat.le_trans least (Nat.le_of_eq none))
    exact nonzero (eq_zero_of_readsBack below_none (of_decide_eq_true below))
  · rename_i below _
    cases found
    exact nonzero (eq_zero_of_readsBack none (of_decide_eq_true below))
  · cases found
    cases none
  · cases found

/-- The shortest decimal of a magnitude other than zero is not zero. -/
theorem shortest_ne_zero {x : Magnitude} (nonzero : x ≠ .zero) : (shortest x).digits ≠ 0 := by
  simp only [shortest]
  -- A decimal that the search stops at reads back, and zero reads back as zero only.  Where
  -- it finds none, the exact decimal is taken, which is a product.
  cases found : (List.range maxDigits).findSome? fun (more : Nat) =>
      onGrid? x (leadingPower x - more) with
  | some d =>
      obtain ⟨more, -, onGrid⟩ := List.exists_of_findSome?_eq_some found
      exact onGrid?_ne_zero nonzero onGrid
  | none =>
      have power : Nat.pow 5 1074 ≠ 0 := by decide +kernel
      exact Nat.mul_ne_zero (Magnitude.units_ne_zero nonzero) power

end Decimal

/-! ## Figures as bytes -/

open Json

/-- A figure is a byte with the same value. -/
theorem encode_figure {c : Char} (figure : c.isDigit = true) (cs : List Char) :
    ∃ b, Utf8.encode (c :: cs) = b :: Utf8.encode cs ∧ isDigit b = true ∧
      digitValue b = c.toNat - '0'.toNat ∧ (c ≠ '0' → b ≠ Ascii.zero) := by
  have all : ∀ n < 58, 48 ≤ n → String.utf8EncodeChar (Char.ofNat n) = [UInt8.ofNat n] ∧
      isDigit (UInt8.ofNat n) = true ∧ digitValue (UInt8.ofNat n) = n - '0'.toNat ∧
        (Char.ofNat n ≠ '0' → UInt8.ofNat n ≠ Ascii.zero) := by decide
  have range := Char.isDigit_iff_toNat.1 figure
  obtain ⟨encoded, rest⟩ := all c.toNat (Nat.lt_succ_of_le range.2) range.1
  rw [Char.ofNat_toNat] at encoded rest
  refine ⟨_, ?_, rest⟩
  rw [Utf8.encode_cons, encoded]
  rfl

theorem allDigits_encode {cs : List Char} (figures : AllFigures cs) :
    AllDigits (Utf8.encode cs) := by
  induction cs with
  | nil => exact List.forall_mem_nil _
  | cons c cs ih =>
      obtain ⟨figure, more⟩ := List.forall_mem_cons.1 figures
      obtain ⟨b, encoded, digit, -⟩ := encode_figure figure cs
      rw [encoded]
      exact List.forall_mem_cons.2 ⟨digit, ih more⟩

theorem isWhole_encode {c : Char} {cs : List Char} (figures : AllFigures (c :: cs))
    (nonzero : c ≠ '0') : IsWhole (Utf8.encode (c :: cs)) := by
  obtain ⟨figure, more⟩ := List.forall_mem_cons.1 figures
  obtain ⟨b, encoded, digit, -, first⟩ := encode_figure figure cs
  rw [encoded]
  exact .digits digit (first nonzero) (allDigits_encode more)

theorem isFraction_encode {c : Char} {cs : List Char} (figures : AllFigures (c :: cs)) :
    IsFraction (Utf8.encode ('.' :: c :: cs)) := by
  obtain ⟨figure, more⟩ := List.forall_mem_cons.1 figures
  obtain ⟨b, encoded, digit, -⟩ := encode_figure figure cs
  rw [Utf8.encode_cons, encoded]
  exact .digits digit (allDigits_encode more)

theorem isExponent_encode {sign c : Char} {cs : List Char} (signs : sign = '-' ∨ sign = '+')
    (figures : AllFigures (c :: cs)) : IsExponent (Utf8.encode ('e' :: sign :: c :: cs)) := by
  obtain ⟨figure, more⟩ := List.forall_mem_cons.1 figures
  obtain ⟨b, encoded, digit, -⟩ := encode_figure figure cs
  rw [Utf8.encode_cons, Utf8.encode_cons, encoded]
  rcases signs with rfl | rfl
  · show IsExponent (Ascii.lowerE :: ([Ascii.minus] ++ b :: Utf8.encode cs))
    exact .digits (.inl rfl) (by decide) digit (allDigits_encode more)
  · show IsExponent (Ascii.lowerE :: ([Ascii.plus] ++ b :: Utf8.encode cs))
    exact .digits (.inl rfl) (by decide) digit (allDigits_encode more)

/-! ## Numbers -/

/-- The parts of an unsigned numeral, one after the other. -/
theorem isUnsigned_encode {whole fraction exponent : List Char}
    (isWhole : IsWhole (Utf8.encode whole)) (isFraction : IsFraction (Utf8.encode fraction))
    (isExponent : IsExponent (Utf8.encode exponent)) :
    IsUnsigned (Utf8.encode (whole ++ (fraction ++ exponent))) := by
  rw [Utf8.encode_append, Utf8.encode_append]
  exact .parts isWhole isFraction isExponent

theorem isNumeral_minus {text : List Char} (unsigned : IsUnsigned (Utf8.encode text)) :
    IsNumeral (Utf8.encode ('-' :: text)) := by
  rw [Utf8.encode_cons]
  exact .negative unsigned

namespace DecimalFormat

variable {c : Char} {more : List Char}

theorem isUnsigned_pointAfter (count : Nat) (nonzero : c ≠ '0') (figures : AllFigures (c :: more)) :
    IsUnsigned (Utf8.encode (pointAfter (count + 1) (c :: more))) := by
  obtain ⟨figure, others⟩ := List.forall_mem_cons.1 figures
  have whole : AllFigures (c :: (more.take count ++
      List.replicate (count + 1 - (c :: more).length) '0')) := by
    refine List.forall_mem_cons.2 ⟨figure, List.forall_mem_append.2 ⟨?_, ?_⟩⟩
    · exact fun d taken => others d (List.mem_of_mem_take taken)
    · intro d zero
      rw [List.eq_of_mem_replicate zero]
      rfl
  have shape : pointAfter (count + 1) (c :: more) =
      c :: (more.take count ++ List.replicate (count + 1 - (c :: more).length) '0') ++
        (('.' :: if (c :: more).length ≤ count + 1 then ['0'] else more.drop count) ++ []) := by
    rw [pointAfter, List.take_succ_cons, List.drop_succ_cons, List.append_nil, List.cons_append]
  rw [shape]
  refine isUnsigned_encode (isWhole_encode whole nonzero) ?_ .missing
  split
  · exact isFraction_encode (by decide)
  · rename_i longer
    have left : more.drop count ≠ [] := by
      simp only [List.length_cons] at longer
      simp only [ne_eq, List.drop_eq_nil_iff]
      omega
    obtain ⟨d, ds, dropped⟩ := List.exists_cons_of_ne_nil left
    rw [dropped]
    refine isFraction_encode fun e member => others e (List.mem_of_mem_drop (i := count) ?_)
    rw [dropped]
    exact member

theorem isUnsigned_pointBefore (count : Nat) (figures : AllFigures (c :: more)) :
    IsUnsigned (Utf8.encode (pointBefore count (c :: more))) := by
  have shape : pointBefore count (c :: more) =
      ['0'] ++ (('.' :: (List.replicate count '0' ++ c :: more)) ++ []) := by
    rw [pointBefore, List.append_nil]
    rfl
  have fraction : AllFigures (List.replicate count '0' ++ c :: more) := by
    refine List.forall_mem_append.2 ⟨fun d zero => ?_, figures⟩
    rw [List.eq_of_mem_replicate zero]
    rfl
  have some_figure : List.replicate count '0' ++ c :: more ≠ [] := by simp
  rw [shape]
  refine isUnsigned_encode .zero ?_ .missing
  obtain ⟨d, ds, first⟩ := List.exists_cons_of_ne_nil some_figure
  rw [first] at fraction ⊢
  exact isFraction_encode fraction

theorem isUnsigned_withExponent (power : Int) (nonzero : c ≠ '0')
    (figures : AllFigures (c :: more)) :
    IsUnsigned (Utf8.encode (withExponent (c :: more) power)) := by
  obtain ⟨figure, others⟩ := List.forall_mem_cons.1 figures
  have whole : IsWhole (Utf8.encode [c]) :=
    isWhole_encode (List.forall_mem_singleton.2 figure) nonzero
  have exponent : IsExponent (Utf8.encode ('e' :: (if power < 0 then '-' else '+') ::
      Decimal.figures power.natAbs)) := by
    have digits := Decimal.allFigures_figures power.natAbs
    have some_figure : Decimal.figures power.natAbs ≠ [] := Nat.toDigits_ne_nil
    obtain ⟨d, ds, first⟩ := List.exists_cons_of_ne_nil some_figure
    rw [first] at digits ⊢
    refine isExponent_encode ?_ digits
    split
    · exact .inl rfl
    · exact .inr rfl
  cases more with
  | nil => exact @isUnsigned_encode [c] [] _ whole .missing exponent
  | cons d ds =>
      exact @isUnsigned_encode [c] ('.' :: d :: ds) _ whole (isFraction_encode others) exponent

theorem isUnsigned_decimal (format : DecimalFormat) {d : Decimal} (nonzero : d.digits ≠ 0) :
    IsUnsigned (Utf8.encode (format.decimal d)) := by
  obtain ⟨c, more, significant, first, figures⟩ := Decimal.exists_significant_eq_cons nonzero
  simp only [decimal, significant]
  split
  · split
    · exact isUnsigned_pointAfter _ first figures
    · exact isUnsigned_pointBefore _ figures
  · exact isUnsigned_withExponent _ first figures

theorem isUnsigned_magnitude (format : DecimalFormat) (x : Magnitude) :
    IsUnsigned (Utf8.encode (if x = .zero then ['0', '.', '0']
      else format.decimal (.shortest x))) := by
  split
  · exact @isUnsigned_pointBefore '0' [] 0 (by decide)
  · rename_i nonzero
    exact format.isUnsigned_decimal (Decimal.shortest_ne_zero nonzero)

theorem isNumeral_double (format : DecimalFormat) (x : Double) :
    IsNumeral (Utf8.encode (format.double x)) := by
  have unsigned := format.isUnsigned_magnitude x.magnitude
  rw [double]
  split
  · exact isNumeral_minus unsigned
  · exact .positive unsigned

end DecimalFormat

namespace Number

theorem isUnsigned_figures (n : Nat) : IsUnsigned (Utf8.encode (Decimal.figures n)) := by
  have alone {cs : List Char} (isWhole : IsWhole (Utf8.encode cs)) :
      IsUnsigned (Utf8.encode cs) := by
    have parts := @isUnsigned_encode cs [] [] isWhole .missing .missing
    rwa [List.append_nil, List.append_nil] at parts
  by_cases zero : n = 0
  · subst zero
    exact alone .zero
  · obtain ⟨c, more, all, first⟩ := Decimal.exists_figures_eq_cons zero
    have figures := Decimal.allFigures_figures n
    rw [all] at figures ⊢
    exact alone (isWhole_encode figures first)

/-- The text of a number is a numeral. -/
theorem isNumeral_text (n : Number) : IsNumeral (Utf8.encode n.text) := by
  cases n with
  | double x => exact DecimalFormat.json.isNumeral_double x
  | whole n fits =>
      rw [text, wholeText]
      split
      · exact isNumeral_minus (isUnsigned_figures n.natAbs)
      · exact .positive (isUnsigned_figures n.natAbs)

end Number

end JsonSelect
