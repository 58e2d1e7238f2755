/-
# JsonSelect.Proofs.Selection.Unique -- making matches unique keeps the first of each value

Matches are compared by their texts, and a value can be told from its text, so nothing is left
out but values that came before.

* `Matches.FirstAt` holds of a position whose value does not stand at an earlier one.
* `Matches.mem_uniqueSince_iff`, `Matches.nodup_uniqueSince`: of each value that has not been
  seen one copy is kept.
* `Matches.unique_keeps_firsts`: what is kept are the values at those first positions.
-/
import JsonSelect.Proofs.Json.Distinct
import JsonSelect.Selection.Matches

namespace JsonSelect

set_option autoImplicit false

namespace Matches

/-- There is a value at this position, and it does not stand at an earlier one. -/
def FirstAt (found : List Json) (i : Nat) : Prop :=
  ∃ v, found[i]? = some v ∧ ∀ j < i, found[j]? ≠ some v

variable {seen : List String} {found : List Json}

/-! ## What is kept -/

theorem uniqueSince_of_seen {v : Json} (known : v.compact ∈ seen) (rest : List Json) :
    uniqueSince seen (v :: rest) = uniqueSince seen rest := by
  rw [uniqueSince, if_pos known]

theorem uniqueSince_of_new {v : Json} (new : v.compact ∉ seen) (rest : List Json) :
    uniqueSince seen (v :: rest) = v :: uniqueSince (v.compact :: seen) rest := by
  rw [uniqueSince, if_neg new]

/-- Once a value has been kept, its text stands for this value and no other. -/
theorem compact_not_mem_cons_iff {v w : Json} :
    w.compact ∉ v.compact :: seen ↔ w ≠ v ∧ w.compact ∉ seen := by
  rw [List.mem_cons, not_or, Json.compact_injective.eq_iff]

/-- A value is kept if it is there and was not seen before. -/
theorem mem_uniqueSince_iff {v : Json} :
    v ∈ uniqueSince seen found ↔ v ∈ found ∧ v.compact ∉ seen := by
  induction found generalizing seen with
  | nil => simp [uniqueSince]
  | cons w rest ih =>
      by_cases known : w.compact ∈ seen
      · rw [uniqueSince_of_seen known, ih, List.mem_cons]
        constructor
        · exact fun h => ⟨.inr h.1, h.2⟩
        · rintro ⟨rfl | later, new⟩
          · exact absurd known new
          · exact ⟨later, new⟩
      · rw [uniqueSince_of_new known, List.mem_cons, ih, compact_not_mem_cons_iff, List.mem_cons]
        constructor
        · rintro (rfl | ⟨later, -, new⟩)
          · exact ⟨.inl rfl, known⟩
          · exact ⟨.inr later, new⟩
        · rintro ⟨rfl | later, new⟩
          · exact .inl rfl
          · by_cases same : v = w
            · exact .inl same
            · exact .inr ⟨later, same, new⟩

/-- No value is kept twice. -/
theorem nodup_uniqueSince (seen : List String) (found : List Json) :
    (uniqueSince seen found).Nodup := by
  induction found generalizing seen with
  | nil => exact List.nodup_nil
  | cons v rest ih =>
      by_cases known : v.compact ∈ seen
      · rw [uniqueSince_of_seen known]
        exact ih seen
      · rw [uniqueSince_of_new known, List.nodup_cons, mem_uniqueSince_iff]
        exact ⟨fun h => h.2 List.mem_cons_self, ih _⟩

/-- Values that differ and have not been seen are all kept. -/
theorem uniqueSince_eq_self (distinct : found.Nodup) (new : ∀ v ∈ found, v.compact ∉ seen) :
    uniqueSince seen found = found := by
  induction found generalizing seen with
  | nil => rfl
  | cons v rest ih =>
      obtain ⟨first, others⟩ := List.forall_mem_cons.1 new
      obtain ⟨absent, distinct⟩ := List.nodup_cons.1 distinct
      rw [uniqueSince_of_new first, ih distinct]
      intro w member
      refine compact_not_mem_cons_iff.2 ⟨?_, others w member⟩
      rintro rfl
      exact absent member

/-! ## Where it stood -/

/-- The first position of a value that had not been seen at the start. -/
def NewAt (seen : List String) (found : List Json) (i : Nat) : Prop :=
  ∃ v, found[i]? = some v ∧ v.compact ∉ seen ∧ ∀ j < i, found[j]? ≠ some v

theorem newAt_nil_iff {i : Nat} : NewAt [] found i ↔ FirstAt found i := by
  simp [NewAt, FirstAt]

theorem newAt_zero_iff {v : Json} {rest : List Json} :
    NewAt seen (v :: rest) 0 ↔ v.compact ∉ seen := by
  simp [NewAt]

/-- Behind its first value a list has the first positions of the values that differ from it. -/
theorem newAt_succ_iff {v : Json} {rest : List Json} {i : Nat} :
    NewAt seen (v :: rest) (i + 1) ↔ NewAt (v.compact :: seen) rest i := by
  simp only [NewAt, List.getElem?_cons_succ, compact_not_mem_cons_iff]
  constructor
  · rintro ⟨w, here, new, before⟩
    refine ⟨w, here, ⟨?_, new⟩, fun j less => before (j + 1) (Nat.succ_lt_succ less)⟩
    rintro rfl
    exact before 0 (Nat.succ_pos i) rfl
  · rintro ⟨w, here, ⟨different, new⟩, before⟩
    refine ⟨w, here, new, fun j less => ?_⟩
    cases j with
    | zero =>
        rw [List.getElem?_cons_zero]
        rintro same
        exact different (Option.some.inj same).symm
    | succ j =>
        rw [List.getElem?_cons_succ]
        exact before j (Nat.lt_of_succ_lt_succ less)

/-- A value that was seen changes nothing for the values behind it. -/
theorem newAt_cons_of_mem {v : Json} (known : v.compact ∈ seen) {i : Nat} :
    NewAt (v.compact :: seen) found i ↔ NewAt seen found i := by
  have same (w : Json) : w.compact ∉ v.compact :: seen ↔ w.compact ∉ seen := by
    rw [List.mem_cons, not_or]
    refine ⟨And.right, fun new => ⟨?_, new⟩⟩
    intro texts
    exact new (texts ▸ known)
  simp only [NewAt, same]

/-- What is kept stood at the first positions of values not seen, in this order. -/
theorem exists_positions (seen : List String) (found : List Json) :
    ∃ positions : List Nat, positions.Pairwise (· < ·) ∧
      (∀ i, i ∈ positions ↔ NewAt seen found i) ∧
      (uniqueSince seen found).map some = positions.map (found[·]?) := by
  induction found generalizing seen with
  | nil => exact ⟨[], .nil, by simp [NewAt], rfl⟩
  | cons v rest ih =>
      -- The positions behind the first value are one more than those in the rest.
      have shifted {positions : List Nat} (sorted : positions.Pairwise (· < ·)) :
          (positions.map (· + 1)).Pairwise (· < ·) :=
        List.pairwise_map.2 (sorted.imp Nat.succ_lt_succ)
      by_cases known : v.compact ∈ seen
      · obtain ⟨positions, sorted, members, values⟩ := ih seen
        refine ⟨positions.map (· + 1), shifted sorted, fun i => ?_, ?_⟩
        · cases i with
          | zero => simp [newAt_zero_iff, known]
          | succ i => simp [newAt_succ_iff, newAt_cons_of_mem known, members]
        · rw [uniqueSince_of_seen known, values, List.map_map]
          rfl
      · obtain ⟨positions, sorted, members, values⟩ := ih (v.compact :: seen)
        refine ⟨0 :: positions.map (· + 1), ?_, fun i => ?_, ?_⟩
        · refine List.pairwise_cons.2 ⟨fun i member => ?_, shifted sorted⟩
          obtain ⟨j, -, rfl⟩ := List.mem_map.1 member
          exact Nat.succ_pos j
        · cases i with
          | zero => simp [newAt_zero_iff, known]
          | succ i => simp [newAt_succ_iff, members]
        · rw [uniqueSince_of_new known, List.map_cons, values, List.map_cons, List.map_map]
          rfl

/-- **Making matches unique keeps the first of each value.**  The values that are kept are
those at positions before which the value does not stand, in the order of these positions; no
two values have one text; doing it again changes nothing; and every value is among those that
are kept. -/
theorem unique_keeps_firsts (found : List Json) :
    (∃ positions : List Nat, positions.Pairwise (· < ·) ∧
        (∀ i, i ∈ positions ↔ FirstAt found i) ∧
        (unique found).map some = positions.map (found[·]?)) ∧
      (∀ v w : Json, v.compact = w.compact → v = w) ∧
      unique (unique found) = unique found ∧
      ∀ v ∈ found, v ∈ unique found := by
  obtain ⟨positions, sorted, members, values⟩ := exists_positions [] found
  refine ⟨⟨positions, sorted, fun i => ?_, values⟩, fun v w same => ?_, ?_, fun v member => ?_⟩
  · rw [members, newAt_nil_iff]
  · exact Json.compact_injective same
  · exact uniqueSince_eq_self (nodup_uniqueSince [] found) fun _ _ => List.not_mem_nil
  · exact mem_uniqueSince_iff.2 ⟨member, List.not_mem_nil⟩

end Matches

end JsonSelect
