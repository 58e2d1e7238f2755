/-
# JsonSelect.Proofs.Json.Doubles -- values whose numbers are doubles

* `Json.asDoubles_eq_mapNumbers`: storing numbers as doubles changes the numbers of a value
  and nothing else.
* `Json.DoublesOnly` holds of values without whole numbers, as all are whose numbers are
  stored as doubles (`doublesOnly_asDoubles`).
-/
import JsonSelect.Proofs.Json.Numbers
import JsonSelect.Proofs.Number.Nearest

namespace JsonSelect.Json

set_option autoImplicit false

mutual

theorem asDoubles_eq_mapNumbers : (v : Json) → v.asDoubles = v.mapNumbers Number.asDouble
  | .null | .bool _ | .string _ | .number _ => rfl
  | .array items => congrArg array (asDoublesItems_eq_mapNumbers items)
  | .object members => congrArg object (asDoublesMembers_eq_mapNumbers members)

theorem asDoublesItems_eq_mapNumbers : (items : List Json) →
    asDoublesItems items = mapNumbersItems Number.asDouble items
  | [] => rfl
  | v :: rest => by
      rw [asDoublesItems, mapNumbersItems, asDoubles_eq_mapNumbers v,
        asDoublesItems_eq_mapNumbers rest]

theorem asDoublesMembers_eq_mapNumbers : (members : List (String × Json)) →
    asDoublesMembers members = mapNumbersMembers Number.asDouble members
  | [] => rfl
  | (_, v) :: rest => by
      rw [asDoublesMembers, mapNumbersMembers, asDoubles_eq_mapNumbers v,
        asDoublesMembers_eq_mapNumbers rest]

end

/-- Every number in the value is a double. -/
def DoublesOnly (v : Json) : Prop := v.EveryNumber fun n => ∃ x, n = .double x

/-- No number is left as it was for want of a nearest double. -/
theorem doublesOnly_asDoubles (v : Json) : v.asDoubles.DoublesOnly := by
  rw [asDoubles_eq_mapNumbers]
  refine everyNumber_mapNumbers (fun n => ?_) v
  obtain ⟨x, stored⟩ := n.exists_toDouble?
  exact ⟨x, Number.asDouble_of_toDouble? stored⟩

/-- Only numbers can be read as doubles. -/
theorem double?_eq_some_iff {v : Json} {x : Double} :
    v.double? = some x ↔ ∃ n, v = .number n ∧ n.toDouble? = some x := by
  cases v <;> simp [double?]

theorem asDoubles_asDoubles (v : Json) : v.asDoubles.asDoubles = v.asDoubles := by
  simp only [asDoubles_eq_mapNumbers, mapNumbers_mapNumbers, Number.asDouble_asDouble]

/-- Nothing but numbers changes at any location. -/
theorem outline_at?_asDoubles (v : Json) (l : Location) :
    (v.asDoubles.at? l).map outline = (v.at? l).map outline := by
  rw [asDoubles_eq_mapNumbers, outline_at?_mapNumbers]

end JsonSelect.Json
