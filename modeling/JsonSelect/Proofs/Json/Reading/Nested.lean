/-
# JsonSelect.Proofs.Json.Reading.Nested -- what is read from text is not nested too deep

* `Json.readValue_nested`: a value that is read has no more containers inside one another
  than the reader allows.
* `Document.decode_nested`: so it is with the root that queries run on.
-/
import JsonSelect.Document
import JsonSelect.Proofs.Json.Doubles

namespace JsonSelect

set_option autoImplicit false

namespace Json

/-! ## Nested containers -/

mutual

/-- Containers are nested at most `depth` deep. -/
def NestedWithin : Json → (depth : Nat) → Prop
  | .array _, 0 => False
  | .array items, depth + 1 => ItemsNestedWithin items depth
  | .object _, 0 => False
  | .object members, depth + 1 => MembersNestedWithin members depth
  | _, _ => True

def ItemsNestedWithin : List Json → (depth : Nat) → Prop
  | [], _ => True
  | v :: rest, depth => v.NestedWithin depth ∧ ItemsNestedWithin rest depth

def MembersNestedWithin : List (String × Json) → (depth : Nat) → Prop
  | [], _ => True
  | (_, v) :: rest, depth => v.NestedWithin depth ∧ MembersNestedWithin rest depth

end

theorem itemsNestedWithin_iff {items : List Json} {depth : Nat} :
    ItemsNestedWithin items depth ↔ ∀ v ∈ items, v.NestedWithin depth := by
  induction items with
  | nil => simp [ItemsNestedWithin]
  | cons v rest ih => simp [ItemsNestedWithin, ih]

theorem membersNestedWithin_iff {members : List (String × Json)} {depth : Nat} :
    MembersNestedWithin members depth ↔ ∀ m ∈ members, m.2.NestedWithin depth := by
  induction members with
  | nil => simp [MembersNestedWithin]
  | cons m rest ih => simp [MembersNestedWithin, ih]

mutual

theorem NestedWithin.mapNumbers {f : Number → Number} : (v : Json) → ∀ {depth : Nat},
    v.NestedWithin depth → (v.mapNumbers f).NestedWithin depth
  | .null, _, _ | .bool _, _, _ | .number _, _, _ | .string _, _, _ => trivial
  | .array _, 0, nested => nested.elim
  | .array items, _ + 1, nested => ItemsNestedWithin.mapNumbers items nested
  | .object _, 0, nested => nested.elim
  | .object members, _ + 1, nested => MembersNestedWithin.mapNumbers members nested

theorem ItemsNestedWithin.mapNumbers {f : Number → Number} : (items : List Json) →
    ∀ {depth : Nat}, ItemsNestedWithin items depth →
      ItemsNestedWithin (mapNumbersItems f items) depth
  | [], _, _ => trivial
  | v :: rest, _, nested =>
      ⟨NestedWithin.mapNumbers v nested.1, ItemsNestedWithin.mapNumbers rest nested.2⟩

theorem MembersNestedWithin.mapNumbers {f : Number → Number} : (members : List (String × Json)) →
    ∀ {depth : Nat}, MembersNestedWithin members depth →
      MembersNestedWithin (mapNumbersMembers f members) depth
  | [], _, _ => trivial
  | (_, v) :: rest, _, nested =>
      ⟨NestedWithin.mapNumbers v nested.1, MembersNestedWithin.mapNumbers rest nested.2⟩

end

/-! ## Values that are read -/

theorem nested_toJson (scalar : Scalar) (depth : Nat) : scalar.toJson.NestedWithin depth := by
  cases scalar <;> trivial

theorem readValue_nested (depth : Nat) : (readValue depth).Gives (NestedWithin · depth) := by
  induction depth with
  | zero =>
      refine readValueWith_gives (P := fun _ => True) (Q := (NestedWithin · 0)) ?_
        (nested_toJson · 0) ?_ ?_
      · intro value none
        cases none
      · intro none
        cases none
      · intro none
        cases none
  | succ depth ih =>
      refine readValueWith_gives (P := (NestedWithin · depth)) (Q := (NestedWithin · (depth + 1)))
        ?_ (nested_toJson · _) ?_ ?_
      · intro value same
        cases same
        exact ih
      · exact fun _ => itemsNestedWithin_iff.2
      · intro _ members nested
        exact membersNestedWithin_iff.2 fun m member => nested m (Keyed.mem_of_mem_ofList member)

end Json

namespace Document

/-- **A decoded document is not nested too deep.** -/
theorem decode_nested {input : List UInt8} {doc : Document} (decoded : decode input = .ok doc) :
    doc.root.NestedWithin Json.depthLimit := by
  obtain ⟨object, parsed, rfl⟩ := decode_eq_ok_iff.1 decoded
  obtain ⟨found, nested, sorted⟩ := Json.readObjectText_gives
    (P := (Json.NestedWithin · (Json.depthLimit - 1))) (Json.readValue_nested _)
    (Json.readObjectText_of_parseObject parsed)
  have root : (Json.object object.members).NestedWithin Json.depthLimit := by
    rw [sorted]
    exact Json.membersNestedWithin_iff.2 fun m member => nested m (Keyed.mem_of_mem_ofList member)
  show (Json.object object.members).asDoubles.NestedWithin Json.depthLimit
  rw [Json.asDoubles_eq_mapNumbers]
  exact Json.NestedWithin.mapNumbers _ root

end Document

end JsonSelect
