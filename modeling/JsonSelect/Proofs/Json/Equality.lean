/-
# JsonSelect.Proofs.Json.Equality -- values that are equal

Equal values have the same structure, the same strings and keys, and equal numbers.  The two
zeros are equal, so values can be equal without being the same.

* `Json.Equal` compares two values.
* `Json.ZerosAt` holds of values that have different zeros at a location.
* `Json.Equal.eq_or_zerosAt`: that is the only way in which equal values can differ.
-/
import JsonSelect.Proofs.Json.Numbers

namespace JsonSelect

set_option autoImplicit false

/-- Equality of numbers of one kind. -/
def Number.Equal : Number → Number → Prop
  | .whole n _, .whole m _ => n = m
  | .double x, .double y => x.Equal y
  | _, _ => False

namespace Json

mutual

/-- The values have the same structure and equal numbers. -/
def Equal : Json → Json → Prop
  | .null, .null => True
  | .bool a, .bool b => a = b
  | .number n, .number m => n.Equal m
  | .string s, .string t => s = t
  | .array items, .array items' => EqualItems items items'
  | .object members, .object members' => EqualMembers members members'
  | _, _ => False

def EqualItems : List Json → List Json → Prop
  | [], [] => True
  | v :: rest, w :: rest' => v.Equal w ∧ EqualItems rest rest'
  | _, _ => False

def EqualMembers : (members members' : List (String × Json)) → Prop
  | [], [] => True
  | (key, v) :: rest, (key', w) :: rest' => key = key' ∧ v.Equal w ∧ EqualMembers rest rest'
  | _, _ => False

end

/-- At this location there are two zeros, which differ in their signs. -/
def ZerosAt (v w : Json) (l : Location) : Prop :=
  ∃ x y : Double, v.at? l = some (.number (.double x)) ∧ w.at? l = some (.number (.double y)) ∧
    x.magnitude = .zero ∧ y.magnitude = .zero ∧ x.negative ≠ y.negative

theorem ZerosAt.below {v w v' w' : Json} {hop : Hop} {l : Location} (down : v'.down? hop = some v)
    (down' : w'.down? hop = some w) (zeros : v.ZerosAt w l) : v'.ZerosAt w' (hop :: l) := by
  obtain ⟨x, y, here, there, differ⟩ := zeros
  exact ⟨x, y, at?_eq_some_cons_iff.2 ⟨v, down, here⟩, at?_eq_some_cons_iff.2 ⟨w, down', there⟩,
    differ⟩

theorem eq_or_zerosAt_of_number {n m : Number} (equal : n.Equal m) :
    n = m ∨ (number n).ZerosAt (number m) [] := by
  cases n with
  | whole n fits =>
      cases m with
      | whole m fits' =>
          cases equal
          exact .inl rfl
      | double => cases equal
  | double x =>
      cases m with
      | whole => cases equal
      | double y =>
          rcases equal with rfl | ⟨zero, zero'⟩
          · exact .inl rfl
          · by_cases signs : x.negative = y.negative
            · obtain ⟨s, a⟩ := x
              obtain ⟨t, b⟩ := y
              cases signs
              cases zero
              cases zero'
              exact .inl rfl
            · exact .inr ⟨x, y, rfl, rfl, zero, zero', signs⟩

-- By recursion on the first value.  A list of values or members that differs has a first place
-- where it does, and there the values do.
mutual

/-- Equal values are the same, but for the sign of some zero. -/
theorem Equal.eq_or_zerosAt : (v : Json) → ∀ {w : Json}, v.Ordered → w.Ordered → v.Equal w →
    v = w ∨ ∃ l, v.ZerosAt w l
  | .null, w, _, _, equal => by
      cases w with
      | null => exact .inl rfl
      | _ => cases equal
  | .bool b, w, _, _, equal => by
      cases w with
      | bool =>
          cases equal
          exact .inl rfl
      | _ => cases equal
  | .number n, w, _, _, equal => by
      cases w with
      | number m =>
          rcases eq_or_zerosAt_of_number equal with rfl | zeros
          · exact .inl rfl
          · exact .inr ⟨[], zeros⟩
      | _ => cases equal
  | .string s, w, _, _, equal => by
      cases w with
      | string =>
          cases equal
          exact .inl rfl
      | _ => cases equal
  | .array items, w, ordered, ordered', equal => by
      cases w with
      | array items' =>
          rcases EqualItems.eq_or_zerosAt items ordered ordered' equal with
            rfl | ⟨i, v, w, l, here, there, zeros⟩
          · exact .inl rfl
          · exact .inr ⟨.position i :: l, zeros.below here there⟩
      | _ => cases equal
  | .object members, w, ordered, ordered', equal => by
      cases w with
      | object members' =>
          rcases EqualMembers.eq_or_zerosAt members ordered.2 ordered'.2 equal with
            rfl | ⟨key, v, w, l, here, there, zeros⟩
          · exact .inl rfl
          · have down := (Keyed.get?_eq_some_iff ordered.1).2 here
            have down' := (Keyed.get?_eq_some_iff ordered'.1).2 there
            exact .inr ⟨.key key :: l, zeros.below down down'⟩
      | _ => cases equal

theorem EqualItems.eq_or_zerosAt : (items : List Json) → ∀ {items' : List Json},
    OrderedItems items → OrderedItems items' → EqualItems items items' →
      items = items' ∨ ∃ (i : Nat) (v w : Json) (l : Location),
        items[i]? = some v ∧ items'[i]? = some w ∧ v.ZerosAt w l
  | [], [], _, _, _ => .inl rfl
  | v :: rest, w :: rest', ordered, ordered', equal => by
      rcases Equal.eq_or_zerosAt v ordered.1 ordered'.1 equal.1 with rfl | ⟨l, zeros⟩
      · rcases EqualItems.eq_or_zerosAt rest ordered.2 ordered'.2 equal.2 with
          rfl | ⟨i, found⟩
        · exact .inl rfl
        · exact .inr ⟨i + 1, found⟩
      · exact .inr ⟨0, v, w, l, rfl, rfl, zeros⟩

theorem EqualMembers.eq_or_zerosAt : (members : List (String × Json)) →
    ∀ {members' : List (String × Json)}, OrderedMembers members → OrderedMembers members' →
      EqualMembers members members' →
        members = members' ∨ ∃ (key : String) (v w : Json) (l : Location),
          (key, v) ∈ members ∧ (key, w) ∈ members' ∧ v.ZerosAt w l
  | [], [], _, _, _ => .inl rfl
  | (key, v) :: rest, (key', w) :: rest', ordered, ordered', equal => by
      obtain ⟨rfl, value, others⟩ := equal
      rcases Equal.eq_or_zerosAt v ordered.1 ordered'.1 value with rfl | ⟨l, zeros⟩
      · rcases EqualMembers.eq_or_zerosAt rest ordered.2 ordered'.2 others with
          rfl | ⟨name, u, u', l, here, there, zeros⟩
        · exact .inl rfl
        · exact .inr ⟨name, u, u', l, List.mem_cons_of_mem _ here, List.mem_cons_of_mem _ there,
            zeros⟩
      · exact .inr ⟨key, v, w, l, List.mem_cons_self, List.mem_cons_self, zeros⟩

end

end Json

end JsonSelect
