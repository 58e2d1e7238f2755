/-
# JsonSelect.Json.Reading.Ordered -- what is read from text is ordered

Objects list their members by ascending key in every value that is read.

* `Json.Reader.Gives`: what holds of whatever a reader gives.
* `Json.readObjectText_ordered`: the members of an object that is read are in order.
* `Json.parseObject` gives the object that a text holds, with this proof.
-/
import JsonSelect.Except
import JsonSelect.Json.Ordered
import JsonSelect.Json.Reading.Value

namespace JsonSelect

set_option autoImplicit false

namespace Json

/-! ## Readers that give a kind of value -/

/-- Whatever the reader gives has the property. -/
def Reader.Gives {α : Type} (P : α → Prop) (read : Reader α) : Prop :=
  ∀ {s : List UInt8} {step : Step s α}, read s = .ok step → P step.found

section Containers

variable {P : Json → Prop} {inner : Reader Json}

theorem readMoreItems_gives (gives : inner.Gives P) :
    (readMoreItems inner).Gives fun items => ∀ v ∈ items, P v := by
  intro s step read
  fun_induction readMoreItems inner s with
  | case2 =>
      cases read
      exact List.forall_mem_nil _
  | case5 s t c u _ _ _ _ _ ih =>
      obtain ⟨⟨v, rest, shorter⟩, item, read⟩ := bind_eq_ok_iff.1 read
      obtain ⟨⟨more, left, _⟩, items, read⟩ := bind_eq_ok_iff.1 read
      cases read
      exact List.forall_mem_cons.2 ⟨gives item, ih rest shorter items⟩
  | _ => cases read

theorem readItems_gives (gives : inner.Gives P) :
    (readItems inner).Gives fun items => ∀ v ∈ items, P v := by
  intro s step read
  unfold readItems at read
  split at read
  · cases read
  · split at read
    · cases read
      intro v member
      cases member
    · obtain ⟨⟨v, rest, _⟩, item, read⟩ := bind_eq_ok_iff.1 read
      obtain ⟨⟨more, left, _⟩, items, read⟩ := bind_eq_ok_iff.1 read
      cases read
      exact List.forall_mem_cons.2 ⟨gives item, readMoreItems_gives gives items⟩

theorem readMember_gives (gives : inner.Gives P) :
    (readMember inner).Gives fun m => P m.2 := by
  intro s step read
  unfold readMember at read
  obtain ⟨⟨key, rest, _⟩, _, read⟩ := bind_eq_ok_iff.1 read
  dsimp only at read
  split at read
  · cases read
  · split at read
    · obtain ⟨⟨v, left, _⟩, value, read⟩ := bind_eq_ok_iff.1 read
      cases read
      exact gives value
    · cases read

theorem readMoreMembers_gives (gives : inner.Gives P) :
    (readMoreMembers inner).Gives fun members => ∀ m ∈ members, P m.2 := by
  intro s step read
  fun_induction readMoreMembers inner s with
  | case2 =>
      cases read
      exact List.forall_mem_nil _
  | case4 =>
      rename_i ih
      obtain ⟨⟨m, rest, shorter⟩, member, read⟩ := bind_eq_ok_iff.1 read
      obtain ⟨⟨more, left, _⟩, members, read⟩ := bind_eq_ok_iff.1 read
      cases read
      exact List.forall_mem_cons.2
        ⟨readMember_gives gives member, ih rest shorter members⟩
  | _ => cases read

theorem readMembers_gives (gives : inner.Gives P) :
    (readMembers inner).Gives fun members => ∀ m ∈ members, P m.2 := by
  intro s step read
  unfold readMembers at read
  split at read
  · cases read
  · dsimp only at read
    split at read
    · cases read
      intro m member
      cases member
    · split at read
      · obtain ⟨⟨m, rest, _⟩, member, read⟩ := bind_eq_ok_iff.1 read
        obtain ⟨⟨more, left, _⟩, members, read⟩ := bind_eq_ok_iff.1 read
        cases read
        exact List.forall_mem_cons.2
          ⟨readMember_gives gives member, readMoreMembers_gives gives members⟩
      · cases read

/-- What a reader gives, from what it gives inside of containers. -/
theorem readValueWith_gives {Q : Json → Prop} {inner : Option (Reader Json)}
    (gives : ∀ value ∈ inner, value.Gives P) (scalars : ∀ scalar : Scalar, Q scalar.toJson)
    (arrays : inner.isSome = true → ∀ {items}, (∀ v ∈ items, P v) → Q (.array items))
    (objects : inner.isSome = true → ∀ {members}, (∀ m ∈ members, P m.2) →
      Q (.object (Keyed.ofList members))) :
    (readValueWith inner).Gives Q := by
  intro s step read
  unfold readValueWith at read
  split at read
  · cases read
  · dsimp only at read
    split at read
    · cases inner with
      | none => cases read
      | some value =>
          obtain ⟨⟨items, rest, _⟩, found, read⟩ := bind_eq_ok_iff.1 read
          cases read
          exact arrays rfl (readItems_gives (gives value rfl) found)
    · split at read
      · cases inner with
        | none => cases read
        | some value =>
            obtain ⟨⟨members, rest, _⟩, found, read⟩ := bind_eq_ok_iff.1 read
            cases read
            exact objects rfl (readMembers_gives (gives value rfl) found)
      · obtain ⟨⟨scalar, rest, _⟩, _, read⟩ := bind_eq_ok_iff.1 read
        cases read
        exact scalars scalar

/-- The members that are read from a text are those of an object in it, put in order. -/
theorem readObjectText_gives (gives : (readValue (depthLimit - 1)).Gives P) {input : List UInt8}
    {members : Keyed Json} (read : readObjectText input = .ok members) :
    ∃ found, (∀ m ∈ found, P m.2) ∧ members = Keyed.ofList found := by
  unfold readObjectText at read
  split at read
  · cases read
  · split at read
    · obtain ⟨⟨found, rest, _⟩, inside, read⟩ := bind_eq_ok_iff.1 read
      obtain ⟨_, _, read⟩ := bind_eq_ok_iff.1 read
      cases read
      exact ⟨found, readMembers_gives gives inside, rfl⟩
    · split at read
      · cases read
      · obtain ⟨_, _, read⟩ := bind_eq_ok_iff.1 read
        cases read

end Containers

/-! ## Values that are read -/

theorem ordered_toJson (scalar : Scalar) : scalar.toJson.Ordered := by
  cases scalar <;> trivial

theorem readValueWith_ordered {inner : Option (Reader Json)}
    (gives : ∀ value ∈ inner, value.Gives Ordered) : (readValueWith inner).Gives Ordered :=
  readValueWith_gives gives ordered_toJson (fun _ => ordered_array_iff.2)
    (fun _ => ordered_object_ofList)

theorem readValue_ordered (depth : Nat) : (readValue depth).Gives Ordered := by
  induction depth with
  | zero =>
      refine readValueWith_ordered fun value none => ?_
      cases none
  | succ depth ih =>
      refine readValueWith_ordered fun value same => ?_
      cases same
      exact ih

theorem readObjectText_ordered {input : List UInt8} {members : Keyed Json}
    (read : readObjectText input = .ok members) : (object members).Ordered := by
  obtain ⟨found, ordered, rfl⟩ := readObjectText_gives (readValue_ordered _) read
  exact ordered_object_ofList ordered

/-! ## Objects -/

/-- The object that a text holds. -/
def parseObject (input : List UInt8) : Except DecodeError OrderedObject :=
  match read : readObjectText input with
  | .ok members => .ok ⟨members, readObjectText_ordered read⟩
  | .error e => .error (.ofFailure input e)

/-- Its members are what is read. -/
theorem map_members_parseObject (input : List UInt8) :
    (parseObject input).map OrderedObject.members =
      (readObjectText input).mapError (.ofFailure input) := by
  unfold parseObject
  split
  · rename_i read
    exact (congrArg (Except.mapError _) read).symm
  · rename_i read
    exact (congrArg (Except.mapError _) read).symm

theorem readObjectText_of_parseObject {input : List UInt8} {object : OrderedObject}
    (parsed : parseObject input = .ok object) : readObjectText input = .ok object.members := by
  have members := map_members_parseObject input
  rw [parsed] at members
  exact mapError_eq_ok_iff.1 members.symm

end Json

end JsonSelect
