/-
# JsonSelect.Json.Ordered -- members in the order of their keys

* `OrderedJson` and `OrderedObject` are a value and the members of an object that come with
  the proof that all members in them are in order.
* `Keyed.get?_eq_some_iff`: with ascending keys, looking a key up finds the one entry
  that has it.
* `Json.ordered_array_iff`, `Json.ordered_object_iff`: what `Json.Ordered` says of a
  container, in terms of the values in it.
* `OrderedObject.asDoubles`: storing numbers as doubles keeps the order.
-/
import JsonSelect.Json.Basic

namespace JsonSelect

set_option autoImplicit false

namespace Keyed

variable {α : Type}

instance (entries : Keyed α) : Decidable (Ascending entries) :=
  inferInstanceAs (Decidable (List.Pairwise _ _))

theorem mem_of_get?_eq_some {key : String} {value : α} {entries : Keyed α}
    (found : get? key entries = some value) : (key, value) ∈ entries := by
  induction entries with
  | nil => cases found
  | cons e rest ih =>
      obtain ⟨k, old⟩ := e
      simp only [get?] at found
      split at found
      · rename_i same
        cases found
        exact same ▸ List.mem_cons_self
      · exact List.mem_cons_of_mem _ (ih found)

theorem get?_eq_some_iff {key : String} {value : α} {entries : Keyed α}
    (ascending : Ascending entries) :
    get? key entries = some value ↔ (key, value) ∈ entries := by
  refine ⟨mem_of_get?_eq_some, fun member => ?_⟩
  induction entries with
  | nil => cases member
  | cons e rest ih =>
      obtain ⟨k, old⟩ := e
      obtain ⟨after, sorted⟩ := List.pairwise_cons.1 ascending
      simp only [get?]
      rcases List.mem_cons.1 member with same | inRest
      · cases same
        rw [if_pos rfl]
      · have different : k ≠ key := fun same => not_before_self key (same ▸ after _ inRest)
        rw [if_neg different, ih sorted inRest]

end Keyed

namespace Json

theorem orderedItems_iff {items : List Json} : OrderedItems items ↔ ∀ v ∈ items, v.Ordered := by
  induction items with
  | nil => simp [OrderedItems]
  | cons v rest ih => simp [OrderedItems, ih]

theorem orderedMembers_iff {members : List (String × Json)} :
    OrderedMembers members ↔ ∀ m ∈ members, m.2.Ordered := by
  induction members with
  | nil => simp [OrderedMembers]
  | cons m rest ih => simp [OrderedMembers, ih]

theorem ordered_array_iff {items : List Json} :
    (array items).Ordered ↔ ∀ v ∈ items, v.Ordered := by
  rw [Ordered, orderedItems_iff]

theorem ordered_object_iff {members : List (String × Json)} :
    (object members).Ordered ↔ Keyed.Ascending members ∧ ∀ m ∈ members, m.2.Ordered := by
  rw [Ordered, orderedMembers_iff]

mutual

instance decidableOrdered : (v : Json) → Decidable v.Ordered
  | .null | .bool _ | .number _ | .string _ => isTrue trivial
  | .array items => decidableOrderedItems items
  | .object members =>
      haveI := decidableOrderedMembers members
      inferInstanceAs (Decidable (Keyed.Ascending members ∧ OrderedMembers members))

instance decidableOrderedItems : (items : List Json) → Decidable (OrderedItems items)
  | [] => isTrue trivial
  | v :: rest =>
      haveI := decidableOrdered v
      haveI := decidableOrderedItems rest
      inferInstanceAs (Decidable (v.Ordered ∧ OrderedItems rest))

instance decidableOrderedMembers :
    (members : List (String × Json)) → Decidable (OrderedMembers members)
  | [] => isTrue trivial
  | (_, v) :: rest =>
      haveI := decidableOrdered v
      haveI := decidableOrderedMembers rest
      inferInstanceAs (Decidable (v.Ordered ∧ OrderedMembers rest))

end

/-- Members in any order make an ordered object, the last of those with one key counting. -/
theorem ordered_object_ofList {members : List (String × Json)}
    (ordered : ∀ m ∈ members, m.2.Ordered) : (object (Keyed.ofList members)).Ordered :=
  ordered_object_iff.2
    ⟨Keyed.ascending_ofList members, fun m member => ordered m (Keyed.mem_of_mem_ofList member)⟩

/-! ## Numbers as doubles -/

theorem asDoublesMembers_eq_map (members : List (String × Json)) :
    asDoublesMembers members = members.map fun m => (m.1, m.2.asDoubles) := by
  induction members with
  | nil => rfl
  | cons m rest ih => rw [asDoublesMembers, ih, List.map_cons]

theorem ascending_asDoublesMembers {members : List (String × Json)}
    (ascending : Keyed.Ascending members) : Keyed.Ascending (asDoublesMembers members) := by
  rw [asDoublesMembers_eq_map]
  exact List.pairwise_map.2 ascending

mutual

theorem Ordered.asDoubles : (v : Json) → v.Ordered → v.asDoubles.Ordered
  | .null, _ | .bool _, _ | .number _, _ | .string _, _ => trivial
  | .array items, ordered => OrderedItems.asDoublesItems items ordered
  | .object members, ordered =>
      ⟨ascending_asDoublesMembers ordered.1,
        OrderedMembers.asDoublesMembers members ordered.2⟩

theorem OrderedItems.asDoublesItems :
    (items : List Json) → OrderedItems items → OrderedItems (asDoublesItems items)
  | [], _ => trivial
  | v :: rest, ordered =>
      ⟨Ordered.asDoubles v ordered.1, OrderedItems.asDoublesItems rest ordered.2⟩

theorem OrderedMembers.asDoublesMembers : (members : List (String × Json)) →
    OrderedMembers members → OrderedMembers (asDoublesMembers members)
  | [], _ => trivial
  | (_, v) :: rest, ordered =>
      ⟨Ordered.asDoubles v ordered.1, OrderedMembers.asDoublesMembers rest ordered.2⟩

end

end Json

/-! ## Values that carry the order -/

/-- A value whose objects list their members by ascending key. -/
structure OrderedJson where
  value : Json
  ordered : value.Ordered

/-- The members of such an object. -/
structure OrderedObject where
  members : Keyed Json
  ordered : (Json.object members).Ordered

namespace OrderedObject

instance : EmptyCollection OrderedObject := ⟨⟨[], .nil, trivial⟩⟩

def asDoubles (object : OrderedObject) : OrderedObject :=
  ⟨Json.asDoublesMembers object.members, Json.Ordered.asDoubles _ object.ordered⟩

end OrderedObject

end JsonSelect
