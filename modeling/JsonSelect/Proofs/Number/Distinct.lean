/-
# JsonSelect.Proofs.Number.Distinct -- a number can be told from its text

* `IsMark` holds of the characters of numerals, and the text of a number has no others
  (`Number.isMark_of_mem_text`).
* `Magnitude.text_injective`: what a text shows is rounded to one magnitude only.
* `Number.text_injective`: different numbers have different texts.  A point or an exponent
  tells a double from a whole number, and a minus sign tells the zeros apart.
-/
import JsonSelect.Proofs.Number.Written

namespace JsonSelect

set_option autoImplicit false

/-! ## Characters of numerals -/

/-- A character that may stand in a numeral. -/
def IsMark (c : Char) : Prop := c.isDigit = true ∨ c ∈ ['-', '+', '.', 'e']

instance (c : Char) : Decidable (IsMark c) := inferInstanceAs (Decidable (_ ∨ _))

/-- A digit with marks behind it, among them a point or an exponent. -/
def IsDecimalText (text : List Char) : Prop :=
  ∃ c t, text = c :: t ∧ c.isDigit = true ∧ (∀ e ∈ t, IsMark e) ∧ ('.' ∈ t ∨ 'e' ∈ t)

theorem AllFigures.isMark {cs : List Char} (figures : AllFigures cs) : ∀ c ∈ cs, IsMark c :=
  fun c member => .inl (figures c member)

theorem isMark_of_mem_replicate {count : Nat} : ∀ c ∈ List.replicate count '0', IsMark c := by
  intro c member
  rw [List.eq_of_mem_replicate member]
  decide

theorem IsDecimalText.isMark {text : List Char} (decimal : IsDecimalText text) :
    ∀ c ∈ text, IsMark c := by
  obtain ⟨c, t, rfl, digit, marks, -⟩ := decimal
  exact List.forall_mem_cons.2 ⟨.inl digit, marks⟩

namespace DecimalFormat

variable {c : Char} {more : List Char}

theorem isDecimalText_pointAfter (count : Nat) (figures : AllFigures (c :: more)) :
    IsDecimalText (pointAfter (count + 1) (c :: more)) := by
  obtain ⟨figure, others⟩ := List.forall_mem_cons.1 figures
  have taken : ∀ e ∈ more.take count, IsMark e :=
    fun e member => .inl (others e (List.mem_of_mem_take member))
  have behind : ∀ e ∈ if (c :: more).length ≤ count + 1 then ['0'] else more.drop count,
      IsMark e := by
    split
    · exact List.forall_mem_singleton.2 (by decide)
    · exact fun e member => .inl (others e (List.mem_of_mem_drop member))
  refine ⟨c, _, rfl, figure, ?_, .inl (List.mem_append_right _ List.mem_cons_self)⟩
  refine List.forall_mem_append.2 ⟨?_, List.forall_mem_cons.2 ⟨by decide, behind⟩⟩
  exact List.forall_mem_append.2 ⟨taken, isMark_of_mem_replicate⟩

theorem isDecimalText_pointBefore (count : Nat) (figures : AllFigures more) :
    IsDecimalText (pointBefore count more) := by
  refine ⟨'0', _, rfl, by decide, ?_, .inl List.mem_cons_self⟩
  refine List.forall_mem_cons.2 ⟨by decide, List.forall_mem_append.2 ⟨?_, figures.isMark⟩⟩
  exact isMark_of_mem_replicate

theorem isDecimalText_withExponent (power : Int) (figures : AllFigures (c :: more)) :
    IsDecimalText (withExponent (c :: more) power) := by
  obtain ⟨figure, others⟩ := List.forall_mem_cons.1 figures
  have exponent : ∀ e ∈ 'e' :: (if power < 0 then '-' else '+') :: Decimal.figures power.natAbs,
      IsMark e := by
    refine List.forall_mem_cons.2 ⟨by decide, List.forall_mem_cons.2 ⟨?_, ?_⟩⟩
    · split <;> decide
    · exact (Decimal.allFigures_figures power.natAbs).isMark
  cases more with
  | nil => exact ⟨c, _, rfl, figure, exponent, .inr List.mem_cons_self⟩
  | cons d ds =>
      refine ⟨c, _, rfl, figure, ?_, .inl List.mem_cons_self⟩
      refine List.forall_mem_cons.2 ⟨by decide, ?_⟩
      exact List.forall_mem_append.2 ⟨AllFigures.isMark others, exponent⟩

theorem isDecimalText_decimal (format : DecimalFormat) {d : Decimal} (nonzero : d.digits ≠ 0) :
    IsDecimalText (format.decimal d) := by
  obtain ⟨c, more, significant, -, figures⟩ := Decimal.exists_significant_eq_cons nonzero
  simp only [decimal, significant]
  split
  · split
    · exact isDecimalText_pointAfter _ figures
    · exact isDecimalText_pointBefore _ figures
  · exact isDecimalText_withExponent _ figures

end DecimalFormat

/-! ## Magnitudes -/

namespace Magnitude

theorem isDecimalText_text (x : Magnitude) : IsDecimalText x.text := by
  rw [text]
  split
  · have marks : ∀ c ∈ ['.', '0'], IsMark c :=
      List.forall_mem_cons.2 ⟨by decide, List.forall_mem_singleton.2 (by decide)⟩
    exact ⟨'0', ['.', '0'], rfl, by decide, marks, .inl List.mem_cons_self⟩
  · rename_i nonzero
    exact DecimalFormat.json.isDecimalText_decimal (Decimal.shortest_ne_zero nonzero)

/-- What the text of any magnitude shows is rounded to the magnitude. -/
theorem exists_shows_roundsTo (x : Magnitude) :
    ∃ n : Json.Numeral, x.Shows n ∧
      RoundsTo (n.significand * 10 ^ n.power * unitsPerOne) x := by
  by_cases zero : x = .zero
  · subst zero
    refine ⟨_, shows_zero, ?_⟩
    rw [Nat.cast_zero, zero_mul, zero_mul]
    exact ⟨0, 1, Nat.one_pos, by simp, rfl⟩
  · obtain ⟨n, shows_, -, -, rounds⟩ := exists_shows zero
    exact ⟨n, shows_, rounds⟩

/-- Magnitudes with one text show one numeral, which is rounded to one magnitude. -/
theorem text_injective : Function.Injective text := by
  intro x y same
  obtain ⟨n, shows_, rounds⟩ := x.exists_shows_roundsTo
  obtain ⟨m, shows', rounds'⟩ := y.exists_shows_roundsTo
  have shown : y.Shows n := by
    rw [Shows, ← same]
    exact shows_
  cases shown.unique shows'
  exact rounds.unique rounds'

end Magnitude

/-! ## Numbers -/

theorem Decimal.figures_injective : Function.Injective figures := by
  intro n m same
  have values := congrArg (Nat.ofDigitChars 10 · 0) same
  simpa only [figures, Nat.ofDigitChars_ten_toDigits] using values

namespace Number

/-- The text of a whole number has digits behind its sign. -/
theorem isDigit_of_mem_wholeText {n : Int} {c : Char} (member : c ∈ wholeText n) :
    c.isDigit = true ∨ c = '-' := by
  have figures := Decimal.allFigures_figures n.natAbs
  rw [wholeText] at member
  split at member
  · rcases List.mem_cons.1 member with sign | behind
    · exact .inr sign
    · exact .inl (figures c behind)
  · exact .inl (figures c member)

theorem wholeText_injective : Function.Injective wholeText := by
  have unsigned (k : Nat) {t : List Char} : '-' :: t ≠ Decimal.figures k := by
    intro same
    have sign := Decimal.allFigures_figures k '-' (same ▸ List.mem_cons_self)
    exact absurd sign (by decide)
  intro n m same
  unfold wholeText at same
  split at same <;> split at same
  · have := Decimal.figures_injective (List.cons.inj same).2
    omega
  · exact absurd same (unsigned _)
  · exact absurd same.symm (unsigned _)
  · have := Decimal.figures_injective same
    omega

theorem isMark_of_mem_text {n : Number} {c : Char} (member : c ∈ n.text) : IsMark c := by
  cases n with
  | whole n fits =>
      rcases isDigit_of_mem_wholeText member with digit | rfl
      · exact .inl digit
      · decide
  | double x =>
      have marks := x.magnitude.isDecimalText_text.isMark
      rw [text_double] at member
      split at member
      · rcases List.mem_cons.1 member with rfl | behind
        · decide
        · exact marks c behind
      · exact marks c member

/-- The text of a double is not that of a whole number. -/
theorem text_double_ne_wholeText (x : Double) (n : Int) : (double x).text ≠ wholeText n := by
  intro same
  obtain ⟨c, t, shape, -, -, pointed⟩ := x.magnitude.isDecimalText_text
  have inside : ∀ e ∈ t, e ∈ (double x).text := by
    intro e member
    rw [text_double, shape]
    split
    · exact List.mem_cons_of_mem _ (List.mem_cons_of_mem _ member)
    · exact List.mem_cons_of_mem _ member
  rw [same] at inside
  rcases pointed with point | exponent
  · exact absurd (isDigit_of_mem_wholeText (inside _ point)) (by decide)
  · exact absurd (isDigit_of_mem_wholeText (inside _ exponent)) (by decide)

theorem text_ne_nil (n : Number) : n.text ≠ [] := by
  cases n with
  | whole n fits =>
      show wholeText n ≠ []
      rw [wholeText]
      split
      · exact List.cons_ne_nil _ _
      · exact Nat.toDigits_ne_nil
  | double x =>
      obtain ⟨c, t, shape, -⟩ := x.magnitude.isDecimalText_text
      rw [text_double, shape]
      split <;> exact List.cons_ne_nil _ _

theorem text_positive (m : Magnitude) : (double ⟨false, m⟩).text = m.text := by
  rw [text_double, if_neg Bool.false_ne_true]

theorem text_negative (m : Magnitude) : (double ⟨true, m⟩).text = '-' :: m.text := by
  rw [text_double, if_pos rfl]

theorem text_double_injective {x y : Double} (same : (double x).text = (double y).text) :
    x = y := by
  have unsigned (z : Magnitude) {t : List Char} : '-' :: t ≠ z.text := by
    obtain ⟨c, t, shape, digit, -⟩ := z.isDecimalText_text
    rw [shape]
    intro same
    rw [← (List.cons.inj same).1] at digit
    exact absurd digit (by decide)
  obtain ⟨negative, m⟩ := x
  obtain ⟨negative', m'⟩ := y
  cases negative with
  | false =>
      rw [text_positive] at same
      cases negative' with
      | false =>
          rw [text_positive] at same
          rw [Magnitude.text_injective same]
      | true =>
          rw [text_negative] at same
          exact absurd same.symm (unsigned m)
  | true =>
      rw [text_negative] at same
      cases negative' with
      | false =>
          rw [text_positive] at same
          exact absurd same (unsigned m')
      | true =>
          rw [text_negative] at same
          rw [Magnitude.text_injective (List.cons.inj same).2]

/-- Different numbers have different texts. -/
theorem text_injective : Function.Injective text := by
  intro n m same
  cases n with
  | whole n fits =>
      cases m with
      | whole m fits' =>
          cases wholeText_injective same
          rfl
      | double y => exact absurd same.symm (text_double_ne_wholeText y n)
  | double x =>
      cases m with
      | whole m fits => exact absurd same (text_double_ne_wholeText x m)
      | double y => rw [text_double_injective same]

end Number

end JsonSelect
