/-
# JsonSelect.Proofs.Selection.Tiling -- slices fit together

The two bounds of a slice and a single position are read and moved by themselves.  Still no
item is lost and none is selected twice where one slice ends and the next one begins.

* `Positions.Names` holds of a text and of the position that it stands for.
* `Positions.parse?_slice`: the texts on the two sides of a colon are read on their own.
* `Positions.selectText_slice`: so a slice is determined by the places of its two bounds.
* `Json.slices_tile`: adjacent slices make up the slice around them, a negative bound is
  as good as a positive one, and a single position is a slice of one item.
-/
import JsonSelect.Proofs.Selection.Words

namespace JsonSelect

set_option autoImplicit false

namespace Positions

variable {α : Type} {length missing i j k : Nat} {text left right : String}

/-! ## Texts of positions -/

/-- The text is a whole number that stands for the position `i` in a list of `length` items. -/
def Names (length : Nat) (text : String) (i : Nat) : Prop :=
  ∃ k, IsInteger text.toList k ∧ Denotes length k i

theorem isNatural_figures (n : Nat) : IsNatural (Decimal.figures n) n :=
  ⟨Nat.toDigits_ne_nil, Decimal.allFigures_figures n, Nat.ofDigitChars_ten_toDigits⟩

/-- Every whole number has a text, with a minus sign if it is negative. -/
theorem isInteger_wholeText (k : Int) : IsInteger (Number.wholeText k) k := by
  have digits := isNatural_figures k.natAbs
  unfold Number.wholeText
  split
  · rename_i negative
    have value : -(k.natAbs : Int) = k := by omega
    have written := IsInteger.minus digits
    rwa [value] at written
  · rename_i positive
    have value : (k.natAbs : Int) = k := by omega
    have written := IsInteger.unsigned digits
    rwa [value] at written

theorem Names.lt (names : Names length text i) : i < length := by
  obtain ⟨_, -, denotes⟩ := names
  exact denotes.lt

/-- A number less than the length away from zero stands for a position. -/
theorem exists_names_wholeText {k : Int} (inRange : k.natAbs < length) :
    ∃ i, Names length (String.ofList (Number.wholeText k)) i := by
  refine ⟨(fromStart length k).toNat, k, ?_, inRange, ?_⟩
  · rw [String.toList_ofList]
    exact isInteger_wholeText k
  · unfold fromStart
    split <;> omega

/-- A position from the start, and the same position from the end. -/
theorem names_of_positive {k : Int} (positive : 0 < k) (inside : k < length)
    (written : IsInteger text.toList k) : Names length text k.toNat := by
  refine ⟨k, written, by omega, ?_⟩
  rw [if_neg (by omega)]
  omega

theorem names_of_sub {k : Int} (positive : 0 < k) (inside : k < length)
    (written : IsInteger text.toList (k - length)) : Names length text k.toNat := by
  refine ⟨k - length, written, by omega, ?_⟩
  rw [if_pos (by omega)]
  omega

/-- In a list that fits, a position is read as the number that it is. -/
theorem Names.exists_number? (sized : length < 0x8000000000000000)
    (names : Names length text i) :
    ∃ k, number? text.toList = some k ∧ resolve? length k = some i := by
  obtain ⟨k, written, denotes⟩ := names
  have fits : FitsSigned k := by
    have := denotes.1
    unfold FitsSigned
    omega
  exact ⟨k, number?_eq_some_iff.2 ⟨written, fits⟩, resolve?_eq_some_iff.2 denotes⟩

/-! ## The two sides of a colon -/

/-- A slice is read from the bounds on both sides of the colon, and from nothing else. -/
theorem reads_slice_iff {left right : List Char} {positions : Positions} :
    Reads (left ++ ':' :: right) positions ↔
      ∃ start stop, positions = .between start stop ∧ IsBound left start ∧ IsBound right stop := by
  constructor
  · intro reads
    rcases reads.inversion with ⟨star, -⟩ | ⟨_, -, integer⟩ |
      ⟨before, behind, start, stop, split, rfl, lower, upper⟩
    · exact absurd star.symm star_ne_append_colon
    · exact absurd integer not_isInteger_append_colon
    · -- The bounds have no colon, so the one between them is the only one of the text.
      have once := congrArg (List.count ':') split
      simp only [List.count_append, List.count_cons_self,
        List.count_eq_zero_of_not_mem lower.colon_not_mem,
        List.count_eq_zero_of_not_mem upper.colon_not_mem] at once
      have noneLeft : ':' ∉ left := List.count_eq_zero.1 (by omega)
      have noneRight : ':' ∉ right := List.count_eq_zero.1 (by omega)
      have same := aroundColon?_append noneLeft noneRight
      rw [split, aroundColon?_append lower.colon_not_mem upper.colon_not_mem] at same
      cases same
      exact ⟨start, stop, rfl, lower, upper⟩
  · rintro ⟨start, stop, rfl, lower, upper⟩
    exact .between lower upper

theorem parse?_slice (left right : List Char) :
    parse? (left ++ ':' :: right) =
      (bound? left).bind fun start => (bound? right).map fun stop => .between start stop := by
  apply Option.ext
  intro positions
  rw [parse?_eq_some_iff, reads_slice_iff]
  simp only [Option.bind_eq_some_iff, Option.map_eq_some_iff, bound?_eq_some_iff]
  constructor
  · rintro ⟨⟨start, stop, rfl, lower, upper⟩, fits⟩
    exact ⟨start, ⟨lower, fits.1⟩, stop, ⟨upper, fits.2⟩, rfl⟩
  · rintro ⟨start, ⟨lower, lowerFits⟩, stop, ⟨upper, upperFits⟩, rfl⟩
    exact ⟨⟨start, stop, rfl, lower, upper⟩, lowerFits, upperFits⟩

/-! ## Places of bounds -/

/-- The place of a bound in a list of `length` items, if it is in range. -/
def place? (length missing : Nat) (text : String) : Option Nat :=
  (bound? text.toList).bind (resolveBound? length missing)

theorem place?_empty (length missing : Nat) : place? length missing "" = some missing := rfl

theorem Names.place?_eq (sized : length < 0x8000000000000000) (names : Names length text i)
    (missing : Nat) : place? length missing text = some i := by
  obtain ⟨k, read, resolved⟩ := names.exists_number? sized
  have nonempty : text.toList ≠ [] := (number?_eq_some_iff.1 read).1.ne_nil
  rw [place?, bound?, if_neg nonempty, read]
  exact resolved

variable {items : List α}

/-- A slice selects what lies between the places of its bounds. -/
theorem selectText_slice (left right : String) (items : List α) :
    selectText (left ++ ":" ++ right) items =
      match place? items.length 0 left, place? items.length items.length right with
      | some first, some last => (items.take last).drop first
      | _, _ => [] := by
  have text : (left ++ ":" ++ right).toList = left.toList ++ ':' :: right.toList := by simp
  rw [selectText, text, parse?_slice, place?, place?]
  cases bound? left.toList with
  | none => rfl
  | some start =>
      cases bound? right.toList with
      | none => simp
      | some stop => rfl

theorem selectText_between (first : place? items.length 0 left = some i)
    (last : place? items.length items.length right = some j) :
    selectText (left ++ ":" ++ right) items = (items.take j).drop i := by
  rw [selectText_slice, first, last]

/-- A single position selects its item. -/
theorem selectText_single (sized : items.length < 0x8000000000000000)
    (names : Names items.length text i) : selectText text items = items[i]?.toList := by
  obtain ⟨k, read, resolved⟩ := names.exists_number? sized
  obtain ⟨written, fits⟩ := number?_eq_some_iff.1 read
  rw [selectText, parse?_of_reads (.single written) fits]
  show ((resolve? items.length k).bind (items[·]?)).toList = _
  rw [resolved]
  rfl

/-! ## Adjacent slices -/

/-- Up to a place in the middle, and from there on. -/
theorem drop_take_append_drop_take (items : List α) (lower : i ≤ j) (upper : j ≤ k) :
    (items.take j).drop i ++ (items.take k).drop j = (items.take k).drop i := by
  have first : items.take j = (items.take k).take j := by
    rw [List.take_take, Nat.min_eq_left upper]
  by_cases inside : i ≤ (items.take j).length
  · rw [← List.drop_append_of_le_length inside, first, List.take_append_drop]
  · rw [List.length_take] at inside
    have none {m : Nat} (beyond : i ≤ m) (n : Nat) : (items.take n).drop m = [] := by
      apply List.drop_eq_nil_of_le
      rw [List.length_take]
      omega
    simp [none, lower]

/-- One item is a slice. -/
theorem drop_take_succ (inside : i < items.length) :
    (items.take (i + 1)).drop i = items[i]?.toList := by
  rw [List.take_add_one, List.drop_left' (by rw [List.length_take]; omega)]

variable (sized : items.length < 0x8000000000000000)
include sized

theorem selectText_append {a b c : String} (first : Names items.length a i)
    (middle : Names items.length b j) (last : Names items.length c k) (lower : i ≤ j)
    (upper : j ≤ k) :
    selectText (a ++ ":" ++ b) items ++ selectText (b ++ ":" ++ c) items =
      selectText (a ++ ":" ++ c) items := by
  have start := first.place?_eq sized 0
  have stop := last.place?_eq sized items.length
  rw [selectText_between start (middle.place?_eq sized _),
    selectText_between (middle.place?_eq sized _) stop, selectText_between start stop]
  exact drop_take_append_drop_take items lower upper

theorem selectText_halves {b : String} (middle : Names items.length b j) :
    selectText ("" ++ ":" ++ b) items ++ selectText (b ++ ":" ++ "") items = items := by
  rw [selectText_between (place?_empty _ _) (middle.place?_eq sized _),
    selectText_between (middle.place?_eq sized _) (place?_empty _ _)]
  rw [drop_take_append_drop_take items (Nat.zero_le j) (Nat.le_of_lt middle.lt)]
  exact List.take_length

/-- Two texts of one position are as good as each other, alone and as bounds. -/
theorem selectText_congr {a b : String} (namesA : Names items.length a i)
    (namesB : Names items.length b i) :
    selectText a items = selectText b items ∧
      ∀ other, selectText (a ++ ":" ++ other) items = selectText (b ++ ":" ++ other) items ∧
        selectText (other ++ ":" ++ a) items = selectText (other ++ ":" ++ b) items := by
  refine ⟨?_, fun other => ⟨?_, ?_⟩⟩
  · rw [selectText_single sized namesA, selectText_single sized namesB]
  · rw [selectText_slice, selectText_slice, namesA.place?_eq sized, namesB.place?_eq sized]
  · rw [selectText_slice, selectText_slice, namesA.place?_eq sized, namesB.place?_eq sized]

theorem selectText_next {a b : String} (here : Names items.length a i)
    (next : Names items.length b (i + 1)) :
    selectText a items = selectText (a ++ ":" ++ b) items := by
  rw [selectText_between (here.place?_eq sized _) (next.place?_eq sized _),
    selectText_single sized here, drop_take_succ here.lt]

theorem selectText_last {a : String} (here : Names items.length a i)
    (atEnd : items.length = i + 1) :
    selectText a items = selectText (a ++ ":" ++ "") items := by
  rw [selectText_between (here.place?_eq sized _) (place?_empty _ _),
    selectText_single sized here, atEnd, drop_take_succ here.lt]

end Positions

/-! ## Texts between brackets -/

open Positions in
/-- **Slices tile an array.**  Every whole number that is less than the length away from zero
names a position.  A slice up to some bound and one from this bound on make up the slice over
both, and the whole array where the outer bounds are left out.  A position that is counted from
the end may stand for the same one counted from the start, alone or as either bound.  A single
position selects the slice up to the next position, and the slice to the end where there is no
next one. -/
theorem Json.slices_tile {items : List Json} (sized : items.length < 0x8000000000000000) :
    (∀ k : Int, k.natAbs < items.length →
      ∃ i, Names items.length (String.ofList (Number.wholeText k)) i) ∧
    (∀ a b c i j k, Names items.length a i → Names items.length b j → Names items.length c k →
      i ≤ j → j ≤ k →
      (array items).itemsAt (a ++ ":" ++ b) ++ (array items).itemsAt (b ++ ":" ++ c) =
        (array items).itemsAt (a ++ ":" ++ c)) ∧
    (∀ b j, Names items.length b j →
      (array items).itemsAt (":" ++ b) ++ (array items).itemsAt (b ++ ":") =
        (array items).itemsAt "*") ∧
    (∀ k : Int, 0 < k → k < items.length → ∀ a b, IsInteger a.toList k →
      IsInteger b.toList (k - items.length) →
      (array items).itemsAt a = (array items).itemsAt b ∧
        ∀ other,
          (array items).itemsAt (a ++ ":" ++ other) = (array items).itemsAt (b ++ ":" ++ other) ∧
          (array items).itemsAt (other ++ ":" ++ a) = (array items).itemsAt (other ++ ":" ++ b)) ∧
    ∀ a i, Names items.length a i →
      (i < items.length - 1 → ∀ b, IsInteger b.toList (i + 1) →
        (array items).itemsAt a = (array items).itemsAt (a ++ ":" ++ b)) ∧
      (i = items.length - 1 → (array items).itemsAt a = (array items).itemsAt (a ++ ":")) := by
  refine ⟨fun _ => exists_names_wholeText, ?_, ?_, ?_, ?_⟩
  · intro a b c i j k first middle last lower upper
    exact selectText_append sized first middle last lower upper
  · intro b j middle
    have halves := selectText_halves sized middle
    rwa [String.empty_append, String.append_empty] at halves
  · intro k positive inside a b fromStart fromEnd
    have namesA := names_of_positive positive inside fromStart
    have namesB := names_of_sub positive inside fromEnd
    exact selectText_congr sized namesA namesB
  · intro a i here
    have inside := here.lt
    constructor
    · intro before b written
      have next : Names items.length b (i + 1) := by
        refine ⟨i + 1, written, by omega, ?_⟩
        rw [if_neg (by omega)]
        omega
      exact selectText_next sized here next
    · intro atEnd
      have last := selectText_last sized here (by omega)
      rwa [String.append_empty] at last

namespace Example

/-- In four letters the third is counted from the start, and the second and the fourth from
the end. -/
theorem letters_in_three_slices :
    letters.length < 0x8000000000000000 ∧
      (Json.array letters).itemsAt "-3:+2" ++ (Json.array letters).itemsAt "+2:-1" =
        (Json.array letters).itemsAt "-3:-1" ∧
      (Json.array letters).itemsAt ":+2" ++ (Json.array letters).itemsAt "+2:" = letters ∧
      (Json.array letters).itemsAt "-3:+2" = (Json.array letters).itemsAt "1:+2" ∧
      (Json.array letters).itemsAt "-1" = (Json.array letters).itemsAt "-1:" := by
  have sized : letters.length < 0x8000000000000000 := by decide
  have three : Positions.IsInteger "-3".toList (-3) := .minus (n := 3) (by decide)
  have last : Positions.IsInteger "-1".toList (-1) := .minus (n := 1) (by decide)
  have one : Positions.IsInteger "1".toList 1 := .unsigned (n := 1) (by decide)
  have two : Positions.IsInteger "+2".toList 2 := .plus (n := 2) (by decide)
  have second : Positions.Names letters.length "-3" 1 := ⟨-3, three, by decide, rfl⟩
  have third : Positions.Names letters.length "+2" 2 := ⟨2, two, by decide, rfl⟩
  have fourth : Positions.Names letters.length "-1" 3 := ⟨-1, last, by decide, rfl⟩
  obtain ⟨-, adjacent, halves, moved, single⟩ := Json.slices_tile sized
  refine ⟨sized, ?_, ?_, ?_, ?_⟩
  · exact adjacent "-3" "+2" "-1" 1 2 3 second third fourth (by decide) (by decide)
  · exact halves "+2" 2 third
  · exact ((moved 1 (by decide) (by decide) "1" "-3" one three).2 "+2").1.symm
  · exact (single "-1" 3 fourth).2 rfl

end Example

end JsonSelect
