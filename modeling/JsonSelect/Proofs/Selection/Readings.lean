/-
# JsonSelect.Proofs.Selection.Readings -- what a text between brackets means

`Positions.Reads` says which texts have a meaning, with whole numbers of any size: `*`, a
whole number, or two bounds with a colon between them.  Neither side of the colon can have
another one, because a bound is made of digits and a sign.

* `integer?_eq_some_iff`: the reader of whole numbers knows exactly those numbers.
* `aroundColon?_append`: a text is split at a colon if it is the only one.
* `parse?_eq_some_iff`: the numbers of a text that is read are those of 64 bits, and this
  is all that the reader leaves out.
-/
import JsonSelect.Proofs.Number.Text
import JsonSelect.Proofs.Path.Brackets

namespace JsonSelect

set_option autoImplicit false

namespace Positions

/-! ## Whole numbers -/

/-- One or more decimal digits with their value. -/
def IsNatural (text : List Char) (n : Nat) : Prop :=
  text ≠ [] ∧ AllFigures text ∧ Nat.ofDigitChars 10 text 0 = n

instance (text : List Char) (n : Nat) : Decidable (IsNatural text n) :=
  inferInstanceAs (Decidable (_ ∧ _ ∧ _))

/-- A whole number of any size, with one sign at most. -/
inductive IsInteger : List Char → Int → Prop
  | unsigned {digits : List Char} {n : Nat} (natural : IsNatural digits n) :
      IsInteger digits n
  | plus {digits : List Char} {n : Nat} (natural : IsNatural digits n) :
      IsInteger ('+' :: digits) n
  | minus {digits : List Char} {n : Nat} (natural : IsNatural digits n) :
      IsInteger ('-' :: digits) (-n)

theorem IsNatural.head_isDigit {c : Char} {text : List Char} {n : Nat}
    (natural : IsNatural (c :: text) n) : c.isDigit = true :=
  natural.2.1 c List.mem_cons_self

theorem natural?_eq_some_iff {text : List Char} {n : Nat} :
    natural? text = some n ↔ IsNatural text n := by
  have value : text.foldl (fun n c => n * 10 + (c.toNat - '0'.toNat)) 0 =
      Nat.ofDigitChars 10 text 0 := by
    rw [Nat.ofDigitChars_eq_foldl]
    simp only [Nat.mul_comm]
  unfold natural? IsNatural
  rw [value]
  split
  · rename_i digits
    rw [Option.some.injEq]
    refine ⟨?_, fun natural => natural.2.2⟩
    intro same
    exact ⟨digits.1, List.all_eq_true.1 digits.2, same⟩
  · rename_i other
    simp only [reduceCtorEq, false_iff]
    intro natural
    exact other ⟨natural.1, List.all_eq_true.2 natural.2.1⟩

/-- A digit is no sign, so the digits are read where no sign stands in front. -/
theorem integer?_of_isDigit {c : Char} {text : List Char} (digit : c.isDigit = true) :
    integer? (c :: text) = (natural? (c :: text)).map Int.ofNat := by
  have noMinus : c ≠ '-' := by
    rintro rfl
    exact absurd digit (by decide)
  have noPlus : c ≠ '+' := by
    rintro rfl
    exact absurd digit (by decide)
  unfold integer?
  split
  · rename_i same
    exact absurd (List.cons.inj same).1 noMinus
  · rename_i same
    exact absurd (List.cons.inj same).1 noPlus
  · rfl

theorem isInteger_of_integer? {text : List Char} {k : Int} (read : integer? text = some k) :
    IsInteger text k := by
  unfold integer? at read
  split at read
  · obtain ⟨_, cast, rfl⟩ := Option.map_eq_some_iff.1 read
    obtain ⟨n, natural, same⟩ := Option.bind_eq_some_iff.1 cast
    cases same
    exact .minus (natural?_eq_some_iff.1 natural)
  · obtain ⟨n, natural, rfl⟩ := Option.map_eq_some_iff.1 read
    exact .plus (natural?_eq_some_iff.1 natural)
  · obtain ⟨n, natural, rfl⟩ := Option.map_eq_some_iff.1 read
    exact .unsigned (natural?_eq_some_iff.1 natural)

theorem integer?_eq_some_iff {text : List Char} {k : Int} :
    integer? text = some k ↔ IsInteger text k := by
  refine ⟨isInteger_of_integer?, ?_⟩
  intro integer
  cases integer with
  | unsigned natural =>
      cases text with
      | nil => exact absurd rfl natural.1
      | cons c text =>
          rw [integer?_of_isDigit natural.head_isDigit, natural?_eq_some_iff.2 natural]
          rfl
  | plus natural =>
      show (natural? _).map Int.ofNat = _
      rw [natural?_eq_some_iff.2 natural]
      rfl
  | minus natural =>
      exact Option.map_eq_some_iff.2
        ⟨_, Option.bind_eq_some_iff.2 ⟨_, natural?_eq_some_iff.2 natural, rfl⟩, rfl⟩

/-- Digits and signs leave no choice of the number. -/
theorem IsInteger.unique {text : List Char} {j k : Int} (left : IsInteger text j)
    (right : IsInteger text k) : j = k := by
  rw [← integer?_eq_some_iff] at left right
  exact Option.some.inj (left.symm.trans right)

theorem number?_eq_some_iff {text : List Char} {k : Int} :
    number? text = some k ↔ IsInteger text k ∧ FitsSigned k := by
  rw [number?, Option.filter_eq_some_iff, integer?_eq_some_iff, decide_eq_true_iff]

theorem IsNatural.not_mem {text : List Char} {n : Nat} (natural : IsNatural text n) {c : Char}
    (other : c.isDigit = false) : c ∉ text := by
  intro inside
  rw [natural.2.1 c inside] at other
  cases other

theorem IsInteger.colon_not_mem {text : List Char} {k : Int} (integer : IsInteger text k) :
    ':' ∉ text := by
  cases integer with
  | unsigned natural => exact natural.not_mem (by decide)
  | plus natural => simp [natural.not_mem (c := ':') (by decide)]
  | minus natural => simp [natural.not_mem (c := ':') (by decide)]

/-! ## Bounds -/

/-- A whole number, or nothing at all. -/
inductive IsBound : List Char → Option Int → Prop
  | missing : IsBound [] none
  | explicit {text : List Char} {k : Int} (integer : IsInteger text k) : IsBound text (some k)

theorem IsInteger.ne_nil {text : List Char} {k : Int} (integer : IsInteger text k) :
    text ≠ [] := by
  cases integer with
  | unsigned natural => exact natural.1
  | plus _ => exact List.cons_ne_nil _ _
  | minus _ => exact List.cons_ne_nil _ _

theorem IsBound.colon_not_mem {text : List Char} {bound : Option Int}
    (isBound : IsBound text bound) : ':' ∉ text := by
  cases isBound with
  | missing => exact List.not_mem_nil
  | explicit integer => exact integer.colon_not_mem

theorem IsBound.unique {text : List Char} {a b : Option Int} (left : IsBound text a)
    (right : IsBound text b) : a = b := by
  cases left with
  | missing =>
      cases right with
      | missing => rfl
      | explicit integer => exact absurd rfl integer.ne_nil
  | explicit integer =>
      cases right with
      | missing => exact absurd rfl integer.ne_nil
      | explicit same => rw [integer.unique same]

theorem bound?_eq_some_iff {text : List Char} {bound : Option Int} :
    bound? text = some bound ↔ IsBound text bound ∧ ∀ k ∈ bound, FitsSigned k := by
  unfold bound?
  split
  · rename_i empty
    rw [empty]
    constructor
    · intro read
      cases read
      refine ⟨.missing, ?_⟩
      intro k member
      cases member
    · rintro ⟨isBound, -⟩
      cases isBound with
      | missing => rfl
      | explicit integer => exact absurd rfl integer.ne_nil
  · rename_i more
    rw [Option.map_eq_some_iff]
    constructor
    · rintro ⟨k, read, rfl⟩
      obtain ⟨integer, fits⟩ := number?_eq_some_iff.1 read
      refine ⟨.explicit integer, ?_⟩
      intro j member
      cases member
      exact fits
    · rintro ⟨isBound, fits⟩
      cases isBound with
      | missing => exact absurd rfl more
      | explicit integer =>
          exact ⟨_, number?_eq_some_iff.2 ⟨integer, fits _ rfl⟩, rfl⟩

/-- A text is split at its only colon. -/
theorem aroundColon?_append {left right : List Char} (before : ':' ∉ left)
    (behind : ':' ∉ right) : aroundColon? (left ++ ':' :: right) = some (left, right) := by
  have passes : ∀ c ∈ left, decide (c ≠ ':') = true := by
    intro c inside
    simp only [ne_eq, decide_not, Bool.not_eq_true', decide_eq_false_iff_not]
    rintro rfl
    exact before inside
  unfold aroundColon?
  rw [List.dropWhile_append_of_pos passes, List.takeWhile_append_of_pos passes]
  simp [behind]

/-! ## Texts -/

/-- The meaning of a text, with whole numbers of any size. -/
inductive Reads : List Char → Positions → Prop
  | all : Reads ['*'] .all
  | single {text : List Char} {k : Int} (integer : IsInteger text k) : Reads text (.single k)
  | between {left right : List Char} {start stop : Option Int} (lower : IsBound left start)
      (upper : IsBound right stop) : Reads (left ++ ':' :: right) (.between start stop)

theorem Reads.inversion {text : List Char} {positions : Positions} (reads : Reads text positions) :
    (text = ['*'] ∧ positions = .all) ∨
      (∃ k, positions = .single k ∧ IsInteger text k) ∨
      ∃ left right start stop, text = left ++ ':' :: right ∧ positions = .between start stop ∧
        IsBound left start ∧ IsBound right stop := by
  cases reads with
  | all => exact .inl ⟨rfl, rfl⟩
  | single integer => exact .inr (.inl ⟨_, rfl, integer⟩)
  | between lower upper => exact .inr (.inr ⟨_, _, _, _, rfl, rfl, lower, upper⟩)

/-- All numbers have 64 bits. -/
def FitWords : Positions → Prop
  | .all => True
  | .single k => FitsSigned k
  | .between start stop => (∀ k ∈ start, FitsSigned k) ∧ ∀ k ∈ stop, FitsSigned k

theorem not_isInteger_star {k : Int} : ¬ IsInteger ['*'] k := by
  intro integer
  rw [← integer?_eq_some_iff] at integer
  exact absurd integer (by simp [integer?, natural?])

theorem star_ne_append_colon {left right : List Char} : ['*'] ≠ left ++ ':' :: right := by
  intro same
  have inside : ':' ∈ ['*'] := by
    rw [same]
    simp
  exact absurd inside (by decide)

theorem not_isInteger_append_colon {left right : List Char} {k : Int} :
    ¬ IsInteger (left ++ ':' :: right) k := by
  intro integer
  apply integer.colon_not_mem
  simp

/-- A text has one meaning at most: a star is no number, and neither has a colon. -/
theorem Reads.unique {text : List Char} {p q : Positions} (left : Reads text p)
    (right : Reads text q) : p = q := by
  rcases left.inversion with ⟨star, rfl⟩ | ⟨j, rfl, integer⟩ |
    ⟨before, behind, start, stop, split, rfl, lower, upper⟩ <;>
  rcases right.inversion with ⟨star', rfl⟩ | ⟨k, rfl, integer'⟩ |
    ⟨before', behind', start', stop', split', rfl, lower', upper'⟩
  · rfl
  · exact absurd (star ▸ integer') not_isInteger_star
  · exact absurd (star ▸ split') star_ne_append_colon
  · exact absurd (star' ▸ integer) not_isInteger_star
  · rw [integer.unique integer']
  · exact absurd (split' ▸ integer) not_isInteger_append_colon
  · exact absurd (star' ▸ split) star_ne_append_colon
  · exact absurd (split ▸ integer') not_isInteger_append_colon
  · have same := aroundColon?_append lower'.colon_not_mem upper'.colon_not_mem
    rw [← split', split, aroundColon?_append lower.colon_not_mem upper.colon_not_mem] at same
    cases same
    rw [lower.unique lower', upper.unique upper']

theorem reads_of_parse? {text : List Char} {positions : Positions}
    (read : parse? text = some positions) : Reads text positions ∧ positions.FitWords := by
  unfold parse? at read
  split at read
  · rename_i star
    cases read
    exact ⟨star ▸ .all, trivial⟩
  · split at read
    · rename_i k number
      cases read
      obtain ⟨integer, fits⟩ := number?_eq_some_iff.1 number
      exact ⟨.single integer, fits⟩
    · obtain ⟨⟨left, right⟩, around, read⟩ := Option.bind_eq_some_iff.1 read
      obtain ⟨start, lower, read⟩ := Option.bind_eq_some_iff.1 read
      obtain ⟨stop, upper, read⟩ := Option.bind_eq_some_iff.1 read
      cases read
      obtain ⟨isLower, lowerFits⟩ := bound?_eq_some_iff.1 lower
      obtain ⟨isUpper, upperFits⟩ := bound?_eq_some_iff.1 upper
      rw [← append_of_aroundColon? around]
      exact ⟨.between isLower isUpper, lowerFits, upperFits⟩

theorem parse?_of_reads {text : List Char} {positions : Positions}
    (reads : Reads text positions) (fits : positions.FitWords) :
    parse? text = some positions := by
  cases reads with
  | all => rfl
  | single integer =>
      have noStar : text ≠ ['*'] := by
        rintro rfl
        exact not_isInteger_star integer
      rw [parse?, if_neg noStar, number?_eq_some_iff.2 ⟨integer, fits⟩]
  | @between left right start stop lower upper =>
      have noNumber : number? (left ++ ':' :: right) = none := by
        rw [Option.eq_none_iff_forall_ne_some]
        intro k read
        exact not_isInteger_append_colon (number?_eq_some_iff.1 read).1
      rw [parse?, if_neg star_ne_append_colon.symm, noNumber]
      show (aroundColon? (left ++ ':' :: right)).bind _ = _
      rw [aroundColon?_append lower.colon_not_mem upper.colon_not_mem, Option.bind_some]
      show (bound? left).bind _ = _
      rw [bound?_eq_some_iff.2 ⟨lower, fits.1⟩, Option.bind_some]
      show (bound? right).bind _ = _
      rw [bound?_eq_some_iff.2 ⟨upper, fits.2⟩]
      rfl

theorem parse?_eq_some_iff {text : List Char} {positions : Positions} :
    parse? text = some positions ↔ Reads text positions ∧ positions.FitWords :=
  ⟨reads_of_parse?, fun read => parse?_of_reads read.1 read.2⟩

end Positions

end JsonSelect
