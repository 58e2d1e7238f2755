/-
# JsonSelect.Proofs.Json.Location -- the places inside a JSON value

A location is the list of hops from a value down to one of the values inside it.

* `Json.at?` is what stands at a location, and `Json.children` lists what one hop
  leads to.  `Json.induction_on_children` is induction over a value along its hops.
* `Location.Before` is document order: a container comes before what is inside it, and
  what is inside it comes in the order of its keys or positions.
* `Location.LeftOf` holds of locations that part at some hop, the first one turning off
  earlier.  Such locations are in document order (`LeftOf.before`), neither is inside the other
  (`LeftOf.not_prefix`), and so it stays however they go on (`LeftOf.append`).
-/
import JsonSelect.Json.Ordered

namespace JsonSelect

set_option autoImplicit false

/-- One step down, to the member with a key or to the item at a position. -/
inductive Hop where
  | key (name : String)
  | position (index : Nat)
  deriving DecidableEq

/-- Whether a hop stands before another one out of the same container, which offers
either keys or positions. -/
def Hop.Before : Hop → Hop → Prop
  | .key a, .key b => Keyed.Before a b
  | .position i, .position j => i < j
  | _, _ => False

theorem Hop.not_before_self (hop : Hop) : ¬ hop.Before hop := by
  cases hop with
  | key name => exact Keyed.not_before_self name
  | position i => exact Nat.lt_irrefl i

abbrev Location := List Hop

/-! ## Document order -/

namespace Location

/-- A location comes before those inside it and before those that turn off later. -/
def Before (l m : Location) : Prop := List.Lex Hop.Before l m

/-- The locations part at some hop, and the first one turns off earlier. -/
inductive LeftOf : Location → Location → Prop
  | turn {a b : Hop} {l m : Location} (before : a.Before b) : LeftOf (a :: l) (b :: m)
  | along {hop : Hop} {l m : Location} (parted : LeftOf l m) : LeftOf (hop :: l) (hop :: m)

theorem not_before_self (l : Location) : ¬ Before l l := by
  induction l with
  | nil => exact fun before => nomatch before
  | cons hop l ih =>
      intro before
      cases before with
      | rel before => exact hop.not_before_self before
      | cons before => exact ih before

theorem LeftOf.before {l m : Location} (parted : LeftOf l m) : Before l m := by
  induction parted with
  | turn before => exact .rel before
  | along _ ih => exact .cons ih

theorem LeftOf.not_prefix {l m : Location} (parted : LeftOf l m) : ¬ l <+: m ∧ ¬ m <+: l := by
  induction parted with
  | @turn a b l m before =>
      have different : a ≠ b := fun same => a.not_before_self (same ▸ before)
      simp [List.cons_prefix_cons, different, different.symm]
  | along _ ih => simpa [List.cons_prefix_cons] using ih

theorem LeftOf.ne {l m : Location} (parted : LeftOf l m) : l ≠ m := by
  rintro rfl
  exact not_before_self l parted.before

/-- Locations that have parted stay apart, however they go on. -/
theorem LeftOf.append {l m : Location} (parted : LeftOf l m) (l' m' : Location) :
    LeftOf (l ++ l') (m ++ m') := by
  induction parted with
  | turn before => exact .turn before
  | along _ ih => exact .along ih

theorem LeftOf.append_left {l m : Location} (parted : LeftOf l m) (start : Location) :
    LeftOf (start ++ l) (start ++ m) := by
  induction start with
  | nil => exact parted
  | cons hop start ih => exact .along ih

end Location

/-! ## What stands at a location -/

namespace Json

/-- Where a hop leads. -/
def down? : Json → Hop → Option Json
  | .object members, .key name => Keyed.get? name members
  | .array items, .position i => items[i]?
  | _, _ => none

/-- The value at a location. -/
def at? : Json → Location → Option Json
  | v, [] => some v
  | v, hop :: l => (v.down? hop).bind fun w => w.at? l

/-- The values directly inside a container, with the hops to them. -/
def children : Json → List (Hop × Json)
  | .array items => items.zipIdx.map fun (v, i) => (.position i, v)
  | .object members => members.map fun (key, v) => (.key key, v)
  | _ => []

@[simp] theorem at?_nil (v : Json) : v.at? [] = some v := rfl

theorem at?_cons (v : Json) (hop : Hop) (l : Location) :
    v.at? (hop :: l) = (v.down? hop).bind (·.at? l) := rfl

theorem at?_position (items : List Json) (i : Nat) :
    (array items).at? [.position i] = items[i]? := by
  simp [at?_cons, down?]

theorem at?_append (v : Json) (l m : Location) : v.at? (l ++ m) = (v.at? l).bind (·.at? m) := by
  induction l generalizing v with
  | nil => rfl
  | cons hop l ih => cases down : v.down? hop <;> simp [at?_cons, down, ih]

theorem at?_eq_some_cons_iff {v w : Json} {hop : Hop} {l : Location} :
    v.at? (hop :: l) = some w ↔ ∃ u, v.down? hop = some u ∧ u.at? l = some w := by
  rw [at?_cons, Option.bind_eq_some_iff]

/-! ## Children -/

theorem sizeOf_lt_of_mem_children {v : Json} {c : Hop × Json} (child : c ∈ v.children) :
    sizeOf c.2 < sizeOf v := by
  cases v with
  | array items =>
      obtain ⟨⟨w, i⟩, member, rfl⟩ := List.mem_map.1 child
      have : sizeOf w < sizeOf items := List.sizeOf_lt_of_mem (List.fst_mem_of_mem_zipIdx member)
      simp only [array.sizeOf_spec]
      omega
  | object members =>
      obtain ⟨⟨key, w⟩, member, rfl⟩ := List.mem_map.1 child
      have := List.sizeOf_lt_of_mem member
      simp only [object.sizeOf_spec, Prod.mk.sizeOf_spec] at this ⊢
      omega
  | _ => cases child

/-- What holds of a value as soon as it holds of all its children holds of every value. -/
theorem induction_on_children {P : Json → Prop}
    (step : ∀ v : Json, (∀ c ∈ v.children, P c.2) → P v) (v : Json) : P v :=
  step v fun c _ => induction_on_children step c.2
termination_by sizeOf v
decreasing_by exact sizeOf_lt_of_mem_children ‹_›

/-- In an ordered value the children are what single hops lead to. -/
theorem mem_children_iff {v : Json} (ordered : v.Ordered) {hop : Hop} {w : Json} :
    (hop, w) ∈ v.children ↔ v.down? hop = some w := by
  cases v with
  | array items =>
      cases hop with
      | key => simp [children, down?]
      | position i =>
          simp only [children, down?, List.mem_map, List.mem_zipIdx_iff_getElem?]
          constructor
          · rintro ⟨⟨u, j⟩, found, same⟩
            cases same
            exact found
          · exact fun found => ⟨(w, i), found, rfl⟩
  | object members =>
      cases hop with
      | key name =>
          simp [children, down?, Keyed.get?_eq_some_iff (ordered_object_iff.1 ordered).1]
      | position => simp [children, down?]
  | _ => simp [children, down?]

theorem pairwise_zipIdx {α : Type} (items : List α) :
    items.zipIdx.Pairwise fun a b => a.2 < b.2 := by
  have ascending : (items.zipIdx.map Prod.snd).Pairwise (· < ·) := by
    rw [List.zipIdx_map_snd]
    exact List.pairwise_lt_range'
  exact List.pairwise_map.1 ascending

/-- The children come in the order of the hops to them. -/
theorem pairwise_children {v : Json} (ordered : v.Ordered) :
    v.children.Pairwise fun c d => c.1.Before d.1 := by
  cases v with
  | array items =>
      rw [children, List.pairwise_map]
      exact pairwise_zipIdx items
  | object members =>
      rw [children, List.pairwise_map]
      exact (ordered_object_iff.1 ordered).1
  | _ => exact .nil

theorem Ordered.of_down? {v w : Json} {hop : Hop} (ordered : v.Ordered)
    (down : v.down? hop = some w) : w.Ordered := by
  cases v with
  | array items =>
      cases hop with
      | key => cases down
      | position i => exact ordered_array_iff.1 ordered w (List.mem_of_getElem? down)
  | object members =>
      cases hop with
      | key name =>
          exact (ordered_object_iff.1 ordered).2 _ (Keyed.mem_of_get?_eq_some down)
      | position => cases down
  | _ => cases down

theorem Ordered.of_at? {v w : Json} {l : Location} (ordered : v.Ordered)
    (found : v.at? l = some w) : w.Ordered := by
  induction l generalizing v with
  | nil => cases found; exact ordered
  | cons hop l ih =>
      obtain ⟨u, down, found⟩ := at?_eq_some_cons_iff.1 found
      exact ih (ordered.of_down? down) found

end Json

end JsonSelect
