/-
# JsonSelect.Proofs.Selection.Positions -- which positions a text selects

`Positions.Covers` says without any list which positions a reading of a text between
brackets selects in a list of some length, and `Positions.Picks` says it of the text.

* `select_sublist` and `map_select`: a selection keeps the order and the number of times
  of what it selects, and never looks at the items.
* `mem_select_zipIdx_iff`, `mem_selectText_zipIdx_iff`: an item is selected exactly if
  its position is covered.
-/
import JsonSelect.Selection.Positions

namespace JsonSelect

set_option autoImplicit false

namespace Positions

variable {α β : Type}

/-- `k` stands for the position `i` of a list of `length` items: counted from the end if
it is negative, and less than the length away from zero. -/
def Denotes (length : Nat) (k : Int) (i : Nat) : Prop :=
  k.natAbs < length ∧ (i : Int) = if k < 0 then k + length else k

/-- What a bound stands for, `missing` if it is left out. -/
def BoundDenotes (length missing : Nat) : Option Int → Nat → Prop
  | none, i => i = missing
  | some k, i => Denotes length k i

/-- The position `i` is among those selected in a list of `length` items. -/
def Covers (length : Nat) : Positions → Nat → Prop
  | .all, i => i < length
  | .single k, i => Denotes length k i
  | .between start stop, i =>
      ∃ first last, BoundDenotes length 0 start first ∧ BoundDenotes length length stop last ∧
        first ≤ i ∧ i < last

/-- The text between brackets selects the position `i` in a list of `length` items. -/
def Picks (text : String) (length i : Nat) : Prop :=
  ∃ positions, parse? text.toList = some positions ∧ positions.Covers length i

theorem resolve?_eq_some_iff {length : Nat} {k : Int} {i : Nat} :
    resolve? length k = some i ↔ Denotes length k i := by
  simp only [resolve?, Denotes]
  split
  · split <;> simp only [Option.some.injEq] <;> omega
  · simp only [reduceCtorEq, false_iff]
    omega

theorem resolveBound?_eq_some_iff {length missing : Nat} {bound : Option Int} {i : Nat} :
    resolveBound? length missing bound = some i ↔ BoundDenotes length missing bound i := by
  cases bound with
  | none => simp [resolveBound?, BoundDenotes, eq_comm]
  | some k => exact resolve?_eq_some_iff

theorem Denotes.lt {length : Nat} {k : Int} {i : Nat} (denotes : Denotes length k i) :
    i < length := by
  obtain ⟨inRange, place⟩ := denotes
  split at place <;> omega

/-- Only positions of the list are covered. -/
theorem Covers.lt {length : Nat} {positions : Positions} {i : Nat}
    (covers : positions.Covers length i) : i < length := by
  cases positions with
  | all => exact covers
  | single k => exact Denotes.lt covers
  | between start stop =>
      obtain ⟨first, last, -, stops, -, upper⟩ := covers
      cases stop with
      | none => exact stops ▸ upper
      | some k => exact Nat.lt_trans upper (Denotes.lt stops)

/-! ## Items are not looked at -/

theorem select_sublist (items : List α) (positions : Positions) :
    (positions.select items).Sublist items := by
  cases positions with
  | all => exact List.Sublist.refl items
  | single k =>
      simp only [select]
      cases place : (resolve? items.length k).bind (items[·]?) with
      | none => exact List.nil_sublist items
      | some v =>
          obtain ⟨i, -, found⟩ := Option.bind_eq_some_iff.1 place
          exact List.singleton_sublist.2 (List.mem_of_getElem? found)
  | between start stop =>
      simp only [select]
      split
      · exact (List.drop_sublist _ _).trans (List.take_sublist _ _)
      · exact List.nil_sublist items

theorem map_select (f : α → β) (items : List α) (positions : Positions) :
    positions.select (items.map f) = (positions.select items).map f := by
  cases positions with
  | all => rfl
  | single k =>
      simp only [select, List.length_map]
      cases resolve? items.length k <;> simp [Option.toList_map]
  | between start stop =>
      simp only [select, List.length_map]
      split <;> simp

theorem selectText_sublist (text : String) (items : List α) :
    (selectText text items).Sublist items := by
  simp only [selectText]
  split
  · exact select_sublist items _
  · exact List.nil_sublist items

theorem map_selectText (f : α → β) (text : String) (items : List α) :
    selectText text (items.map f) = (selectText text items).map f := by
  simp only [selectText]
  split
  · exact map_select f items _
  · rfl

/-! ## Items with their positions -/

theorem mem_take_drop_zipIdx_iff {items : List α} {first last i : Nat} {v : α} :
    (v, i) ∈ (items.zipIdx.take last).drop first ↔ items[i]? = some v ∧ first ≤ i ∧ i < last := by
  rw [List.mem_iff_getElem?]
  simp only [List.getElem?_drop, List.getElem?_take, List.getElem?_zipIdx]
  constructor
  · rintro ⟨j, found⟩
    split at found
    · obtain ⟨w, here, same⟩ := Option.map_eq_some_iff.1 found
      cases same
      exact ⟨by simpa using here, by omega, by omega⟩
    · cases found
  · rintro ⟨found, lower, upper⟩
    refine ⟨i - first, ?_⟩
    rw [show first + (i - first) = i by omega, if_pos upper, found]
    simp

/-- An item is selected if its position is covered. -/
theorem mem_select_zipIdx_iff {items : List α} {positions : Positions} {v : α} {i : Nat} :
    (v, i) ∈ positions.select items.zipIdx ↔
      items[i]? = some v ∧ positions.Covers items.length i := by
  cases positions with
  | all =>
      simp only [select, Covers, List.mk_mem_zipIdx_iff_getElem?]
      exact ⟨fun found => ⟨found, (List.getElem?_eq_some_iff.1 found).1⟩, And.left⟩
  | single k =>
      simp only [select, Covers, List.length_zipIdx, Option.mem_toList,
        Option.bind_eq_some_iff, resolve?_eq_some_iff, List.getElem?_zipIdx, Option.map_eq_some_iff]
      constructor
      · rintro ⟨j, denotes, w, found, same⟩
        cases same
        exact ⟨by simpa using found, by simpa using denotes⟩
      · rintro ⟨found, denotes⟩
        exact ⟨i, denotes, v, found, by simp⟩
  | between start stop =>
      simp only [select, Covers, List.length_zipIdx, ← resolveBound?_eq_some_iff]
      cases resolveBound? items.length 0 start <;>
        cases resolveBound? items.length items.length stop <;>
          simp [mem_take_drop_zipIdx_iff]

theorem mem_selectText_zipIdx_iff {items : List α} {text : String} {v : α} {i : Nat} :
    (v, i) ∈ selectText text items.zipIdx ↔ items[i]? = some v ∧ Picks text items.length i := by
  simp only [selectText, Picks]
  cases parse? text.toList <;> simp [mem_select_zipIdx_iff]

end Positions

end JsonSelect
