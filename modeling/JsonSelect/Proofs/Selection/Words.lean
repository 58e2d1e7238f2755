/-
# JsonSelect.Proofs.Selection.Words -- positions in 64 bits and without bounds

Positions are read and moved in words of 64 bits, but no text can tell: a number that does
not fit is out of range in every list that does, and so is the one number without an
absolute value of 64 bits.

* `Positions.reference` selects by whole numbers of any size.
* `Words.select` selects in 64 bits and stops at an overflow or at a place outside the list;
  `Words.select_eq_ok` says that it never stops.
* `Segment.select_index_eq_reference`: what a text between brackets selects is what its
  meaning selects, or nothing if it has none.
-/
import JsonSelect.Proofs.Selection.Readings
import JsonSelect.Selection.Basic

namespace JsonSelect

set_option autoImplicit false

variable {α : Type}

/-! ## Without bounds -/

namespace Positions

/-- A position counted from the start; a negative one is counted from the end. -/
def fromStart (length : Nat) (k : Int) : Int := if k < 0 then k + length else k

theorem fromStart_toNat_lt {length : Nat} {k : Int} (inRange : k.natAbs < length) :
    (fromStart length k).toNat < length := by
  unfold fromStart
  split <;> omega

/-- The items whose positions are not below `first` and below `last`. -/
def itemsBetween (items : List α) (first last : Int) : List α :=
  (items.zipIdx.filter fun item => first ≤ (item.2 : Int) ∧ (item.2 : Int) < last).map Prod.fst

/-- A bound that is written and not less than the length away from zero. -/
def BoundOutside (length : Nat) (bound : Option Int) : Prop := ∃ k ∈ bound, length ≤ k.natAbs

instance (length : Nat) : (bound : Option Int) → Decidable (BoundOutside length bound)
  | none => isFalse (by rintro ⟨k, member, -⟩; cases member)
  | some k => decidable_of_iff (length ≤ k.natAbs) (by simp [BoundOutside])

/-- The items that positions select, by whole numbers of any size. -/
def reference (items : List α) : Positions → List α
  | .all => items
  | .single k =>
      if inRange : k.natAbs < items.length then
        [items.get ⟨(fromStart items.length k).toNat, fromStart_toNat_lt inRange⟩]
      else []
  | .between start stop =>
      if BoundOutside items.length start ∨ BoundOutside items.length stop then []
      else
        itemsBetween items ((start.map (fromStart items.length)).getD 0)
          ((stop.map (fromStart items.length)).getD items.length)

/-- Positions that are counted from `offset` on. -/
theorem filter_zipIdx_eq_drop_take (items : List α) (offset first last : Nat) :
    ((items.zipIdx offset).filter fun item => first ≤ item.2 ∧ item.2 < last).map Prod.fst =
      (items.take (last - offset)).drop (first - offset) := by
  simp only [Bool.decide_and]
  induction items generalizing offset with
  | nil => simp
  | cons v items ih =>
      rw [List.zipIdx_cons, List.filter_cons]
      have rest := ih (offset + 1)
      by_cases upper : offset < last
      · rw [show last - offset = last - (offset + 1) + 1 by omega, List.take_succ_cons]
        by_cases lower : first ≤ offset
        · rw [show first - (offset + 1) = 0 by omega] at rest
          simp [lower, upper, rest, show first - offset = 0 by omega]
        · rw [show first - offset = first - (offset + 1) + 1 by omega, List.drop_succ_cons]
          simp [lower, rest]
      · rw [show last - (offset + 1) = 0 by omega] at rest
        simp [upper, rest, show last - offset = 0 by omega]

theorem itemsBetween_natCast (items : List α) (first last : Nat) :
    itemsBetween items first last = (items.take last).drop first := by
  simpa only [itemsBetween, Int.ofNat_le, Int.ofNat_lt, Nat.sub_zero] using
    filter_zipIdx_eq_drop_take items 0 first last

theorem resolve?_eq_some {length : Nat} {k : Int} (inRange : k.natAbs < length) :
    resolve? length k = some (fromStart length k).toNat := by
  rw [resolve?, if_pos inRange, fromStart]
  split <;> congr 1 <;> omega

theorem resolve?_eq_none {length : Nat} {k : Int} (outside : ¬ k.natAbs < length) :
    resolve? length k = none := if_neg outside

theorem resolveBound?_eq_none {length missing : Nat} {bound : Option Int}
    (outside : BoundOutside length bound) : resolveBound? length missing bound = none := by
  obtain ⟨k, member, far⟩ := outside
  cases member
  exact resolve?_eq_none (by omega)

theorem resolveBound?_eq_some {length missing : Nat} {bound : Option Int}
    (inside : ¬ BoundOutside length bound) :
    ∃ i, resolveBound? length missing bound = some i ∧
      (bound.map (fromStart length)).getD missing = (i : Int) := by
  cases bound with
  | none => exact ⟨missing, rfl, rfl⟩
  | some k =>
      have inRange : k.natAbs < length := by
        apply Nat.lt_of_not_le
        intro far
        exact inside ⟨k, rfl, far⟩
      refine ⟨_, resolve?_eq_some inRange, ?_⟩
      show fromStart length k = ((fromStart length k).toNat : Int)
      unfold fromStart
      split <;> omega

/-- Positions that are resolved select what whole numbers of any size select. -/
theorem select_eq_reference (items : List α) (positions : Positions) :
    positions.select items = reference items positions := by
  cases positions with
  | all => rfl
  | single k =>
      simp only [select, reference]
      split
      · rename_i inRange
        rw [resolve?_eq_some inRange, Option.bind_some,
          List.getElem?_eq_getElem (fromStart_toNat_lt inRange)]
        rfl
      · rename_i outside
        rw [resolve?_eq_none outside]
        rfl
  | between start stop =>
      simp only [select, reference]
      by_cases outside : BoundOutside items.length start ∨ BoundOutside items.length stop
      · rw [if_pos outside]
        rcases outside with outside | outside
        · rw [resolveBound?_eq_none outside]
        · rw [resolveBound?_eq_none outside]
          cases resolveBound? items.length 0 start <;> rfl
      · rw [if_neg outside]
        obtain ⟨startInside, stopInside⟩ := not_or.1 outside
        obtain ⟨first, resolvedFirst, sameFirst⟩ := resolveBound?_eq_some startInside
        obtain ⟨last, resolvedLast, sameLast⟩ := resolveBound?_eq_some stopInside
        rw [resolvedFirst, resolvedLast]
        rw [Int.natCast_zero] at sameFirst
        rw [sameFirst, sameLast, itemsBetween_natCast]

/-- Numbers that do not fit in 64 bits are out of range. -/
theorem reference_eq_nil_of_not_fitWords {items : List α} {positions : Positions}
    (sized : items.length < 0x8000000000000000) (wide : ¬ positions.FitWords) :
    reference items positions = [] := by
  have far : ∀ k : Int, ¬ FitsSigned k → items.length ≤ k.natAbs := by
    intro k unfit
    unfold FitsSigned at unfit
    omega
  have outside : ∀ bound : Option Int, ¬ (∀ k ∈ bound, FitsSigned k) →
      BoundOutside items.length bound := by
    intro bound unfit
    simp only [not_forall] at unfit
    obtain ⟨k, member, unfit⟩ := unfit
    exact ⟨k, member, far k unfit⟩
  cases positions with
  | all => exact absurd trivial wide
  | single k => exact dif_neg (Nat.not_lt_of_le (far k wide))
  | between start stop =>
      apply if_pos
      rcases not_and_or.1 wide with unfit | unfit
      · exact .inl (outside start unfit)
      · exact .inr (outside stop unfit)

end Positions

/-! ## In words -/

/-- What stops a selection in words. -/
inductive Fault where
  /-- A whole number does not fit in 64 bits. -/
  | overflow
  /-- A place is not in the list. -/
  | outOfBounds
  deriving DecidableEq

namespace Words

/-- A result that has to fit in a word. -/
def checked (n : Int) : Except Fault Int :=
  if FitsSigned n then .ok n else .error .overflow

/-- The place of a position.  There is none if the length or the absolute value is not a
word, nor if the place turns out to be negative. -/
def resolve (length : Nat) (k : Int) : Except Fault (Option Nat) :=
  if FitsSigned length ∧ FitsSigned k.natAbs ∧ k.natAbs < length then do
    let place ← if k < 0 then checked (k + length) else .ok k
    return if 0 ≤ place then some place.toNat else none
  else .ok none

def resolveBound (length missing : Nat) : Option Int → Except Fault (Option Nat)
  | none => .ok (some missing)
  | some k => resolve length k

def item (items : List α) (i : Nat) : Except Fault α :=
  if inside : i < items.length then .ok (items.get ⟨i, inside⟩) else .error .outOfBounds

def slice (items : List α) (first last : Nat) : Except Fault (List α) :=
  if first ≤ last ∧ last ≤ items.length then .ok ((items.take last).drop first)
  else .error .outOfBounds

/-- The items that positions select, stopping at the first fault. -/
def select (items : List α) : Positions → Except Fault (List α)
  | .all => .ok items
  | .single k => do
      match ← resolve items.length k with
      | some i => return [← item items i]
      | none => return []
  | .between start stop => do
      match ← resolveBound items.length 0 start, ← resolveBound items.length items.length stop with
      | some first, some last => if last ≤ first then return [] else slice items first last
      | _, _ => return []

/-- The items that a text selects, stopping at the first fault. -/
def selectText (text : String) (items : List α) : Except Fault (List α) :=
  match Positions.parse? text.toList with
  | some positions => select items positions
  | none => .ok []

theorem resolve_eq_ok {length : Nat} (sized : length < 0x8000000000000000) (k : Int) :
    resolve length k = .ok (Positions.resolve? length k) := by
  unfold resolve
  split
  · rename_i inRange
    have near := inRange.2.2
    rw [Positions.resolve?_eq_some (by omega)]
    unfold Positions.fromStart
    by_cases negative : k < 0
    · have fits : FitsSigned (k + length) := by
        unfold FitsSigned
        omega
      rw [if_pos negative, if_pos negative, checked, if_pos fits]
      show Except.ok (if 0 ≤ k + (length : Int) then _ else _) = _
      rw [if_pos (by omega)]
    · rw [if_neg negative, if_neg negative]
      show Except.ok (if 0 ≤ k then _ else _) = _
      rw [if_pos (by omega)]
  · rename_i outside
    rw [Positions.resolve?_eq_none]
    intro near
    apply outside
    unfold FitsSigned
    omega

theorem resolveBound_eq_ok {length : Nat} (sized : length < 0x8000000000000000)
    (missing : Nat) (bound : Option Int) :
    resolveBound length missing bound = .ok (Positions.resolveBound? length missing bound) := by
  cases bound with
  | none => rfl
  | some k => exact resolve_eq_ok sized k

/-- A bound that has a place has one at most behind the last item. -/
theorem le_of_resolveBound? {length missing i : Nat} {bound : Option Int}
    (inside : missing ≤ length) (resolved : Positions.resolveBound? length missing bound = some i) :
    i ≤ length := by
  cases bound with
  | none =>
      cases resolved
      exact inside
  | some k =>
      apply Nat.le_of_lt
      exact (Positions.resolve?_eq_some_iff.1 resolved).lt

/-- No number overflows and no place is outside the list. -/
theorem select_eq_ok {items : List α} (sized : items.length < 0x8000000000000000)
    (positions : Positions) : select items positions = .ok (positions.select items) := by
  cases positions with
  | all => rfl
  | single k =>
      simp only [select, Positions.select, resolve_eq_ok sized]
      cases resolved : Positions.resolve? items.length k with
      | none => rfl
      | some i =>
          have inside := (Positions.resolve?_eq_some_iff.1 resolved).lt
          simp [item, inside]
  | between start stop =>
      simp only [select, Positions.select, resolveBound_eq_ok sized]
      cases Positions.resolveBound? items.length 0 start with
      | none => rfl
      | some first =>
          cases resolved : Positions.resolveBound? items.length items.length stop with
          | none => rfl
          | some last =>
              have inside := le_of_resolveBound? (Nat.le_refl _) resolved
              show (if last ≤ first then Except.ok [] else slice items first last) =
                Except.ok ((items.take last).drop first)
              split
              · rename_i empty
                rw [List.drop_eq_nil_of_le]
                rw [List.length_take]
                omega
              · rename_i more
                exact if_pos ⟨Nat.le_of_not_le more, inside⟩

theorem selectText_eq_ok {items : List α} (sized : items.length < 0x8000000000000000)
    (text : String) : selectText text items = .ok (Positions.selectText text items) := by
  unfold selectText Positions.selectText
  cases Positions.parse? text.toList with
  | none => rfl
  | some positions => exact select_eq_ok sized positions

end Words

/-! ## Texts between brackets -/

/-- **Words do not show.**  In an array of fewer than 2^63 items a text between brackets
selects what its meaning selects by whole numbers of any size, and a text without a meaning
selects nothing.  The same run in words of 64 bits meets neither an overflow nor a place
outside the array. -/
theorem Segment.select_index_eq_reference {items : List Json}
    (sized : items.length < 0x8000000000000000) (text : String) :
    (∀ positions, Positions.Reads text.toList positions →
      (Segment.index text).select (.array items) = Positions.reference items positions) ∧
    ((∀ positions, ¬ Positions.Reads text.toList positions) →
      (Segment.index text).select (.array items) = []) ∧
    Words.selectText text items = .ok ((Segment.index text).select (.array items)) := by
  refine ⟨?_, ?_, Words.selectText_eq_ok sized text⟩
  · intro positions reads
    show Positions.selectText text items = _
    unfold Positions.selectText
    by_cases fits : positions.FitWords
    · rw [Positions.parse?_of_reads reads fits]
      exact Positions.select_eq_reference items positions
    · rw [Positions.reference_eq_nil_of_not_fitWords sized fits]
      cases read : Positions.parse? text.toList with
      | none => rfl
      | some other =>
          obtain ⟨same, otherFits⟩ := Positions.reads_of_parse? read
          exact absurd (reads.unique same ▸ otherFits) fits
  · intro unread
    show Positions.selectText text items = _
    unfold Positions.selectText
    cases read : Positions.parse? text.toList with
    | none => rfl
    | some positions => exact absurd (Positions.reads_of_parse? read).1 (unread positions)

namespace Example

def letters : List Json := [.string "a", .string "b", .string "c", .string "d"]

/-- Bounds with both signs and leading zeros are read as three from the end up to the third
item. -/
theorem slice_of_letters :
    letters.length < 0x8000000000000000 ∧
      Positions.Reads "-03:+3".toList (.between (some (-3)) (some 3)) ∧
      (Segment.index "-03:+3").select (.array letters) =
        Positions.reference letters (.between (some (-3)) (some 3)) := by
  have sized : letters.length < 0x8000000000000000 := by decide
  have lower : Positions.IsInteger ['-', '0', '3'] (-3) := .minus (n := 3) (by decide)
  have upper : Positions.IsInteger ['+', '3'] 3 := .plus (n := 3) (by decide)
  have reads : Positions.Reads "-03:+3".toList (.between (some (-3)) (some 3)) :=
    .between (.explicit lower) (.explicit upper)
  exact ⟨sized, reads, (Segment.select_index_eq_reference sized "-03:+3").1 _ reads⟩

end Example

end JsonSelect
