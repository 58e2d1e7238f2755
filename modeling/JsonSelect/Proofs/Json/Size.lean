/-
# JsonSelect.Proofs.Json.Size -- how much is in a JSON value

`Json.size` counts the nodes of a value, itself included, and `Json.depth` the hops down
to the deepest of them.

* `size_eq`: a node more than the children have together.
* `length_le_depth`: no location is longer than the value is deep.
-/
import JsonSelect.Proofs.Json.Location

namespace JsonSelect.Json

set_option autoImplicit false

mutual

/-- The number of nodes. -/
def size : Json → Nat
  | .array items => 1 + totalSize items
  | .object members => 1 + sizeMembers members
  | _ => 1

/-- The number of nodes of several values. -/
def totalSize : List Json → Nat
  | [] => 0
  | v :: rest => v.size + totalSize rest

def sizeMembers : List (String × Json) → Nat
  | [] => 0
  | (_, v) :: rest => v.size + sizeMembers rest

end

mutual

/-- The number of hops to the deepest node.  There is none inside an empty container. -/
def depth : Json → Nat
  | .array items => depthItems items
  | .object members => depthMembers members
  | _ => 0

def depthItems : List Json → Nat
  | [] => 0
  | v :: rest => max (v.depth + 1) (depthItems rest)

def depthMembers : List (String × Json) → Nat
  | [] => 0
  | (_, v) :: rest => max (v.depth + 1) (depthMembers rest)

end

/-! ## Nodes -/

@[simp] theorem totalSize_nil : totalSize [] = 0 := by rw [totalSize]

@[simp] theorem totalSize_cons (v : Json) (values : List Json) :
    totalSize (v :: values) = v.size + totalSize values := by rw [totalSize]

@[simp] theorem totalSize_append (values more : List Json) :
    totalSize (values ++ more) = totalSize values + totalSize more := by
  induction values with
  | nil => simp
  | cons v rest ih => rw [List.cons_append, totalSize_cons, totalSize_cons, ih, Nat.add_assoc]

theorem sizeMembers_eq (members : List (String × Json)) :
    sizeMembers members = totalSize (members.map Prod.snd) := by
  induction members with
  | nil => rfl
  | cons m rest ih => rw [sizeMembers, List.map_cons, totalSize_cons, ih]

theorem map_snd_children_array (items : List Json) :
    (array items).children.map Prod.snd = items := by
  simp [children, Function.comp_def]

theorem map_snd_children_object (members : List (String × Json)) :
    (object members).children.map Prod.snd = members.map Prod.snd := by
  simp [children, Function.comp_def]

theorem size_eq (v : Json) : v.size = 1 + totalSize (v.children.map Prod.snd) := by
  cases v with
  | array items => rw [size, map_snd_children_array]
  | object members => rw [size, sizeMembers_eq, map_snd_children_object]
  | _ => rfl

theorem totalSize_le_of_sublist {values more : List Json} (sublist : values.Sublist more) :
    totalSize values ≤ totalSize more := by
  induction sublist with
  | slnil => exact Nat.le_refl 0
  | cons v _ ih => rw [totalSize_cons]; omega
  | cons_cons v _ ih => rw [totalSize_cons, totalSize_cons]; omega

/-- What is taken out of each value has no more nodes than the values together. -/
theorem totalSize_flatMap_le {values : List Json} {take : Json → List Json}
    (each : ∀ v ∈ values, totalSize (take v) ≤ v.size) :
    totalSize (values.flatMap take) ≤ totalSize values := by
  induction values with
  | nil => exact Nat.le_refl 0
  | cons v rest ih =>
      have first := each v List.mem_cons_self
      have others := ih fun w member => each w (List.mem_cons_of_mem v member)
      rw [List.flatMap_cons, totalSize_append, totalSize_cons]
      omega

/-! ## Depth -/

theorem depth_lt_depthItems {v : Json} {items : List Json} (member : v ∈ items) :
    v.depth < depthItems items := by
  induction items with
  | nil => cases member
  | cons w rest ih =>
      rw [depthItems]
      rcases List.mem_cons.1 member with rfl | inRest
      · omega
      · have := ih inRest
        omega

theorem depth_lt_depthMembers {m : String × Json} {members : List (String × Json)}
    (member : m ∈ members) : m.2.depth < depthMembers members := by
  induction members with
  | nil => cases member
  | cons n rest ih =>
      rw [depthMembers]
      rcases List.mem_cons.1 member with rfl | inRest
      · omega
      · have := ih inRest
        omega

theorem depth_lt_of_down? {v w : Json} {hop : Hop} (down : v.down? hop = some w) :
    w.depth < v.depth := by
  cases v with
  | array items =>
      cases hop with
      | key => cases down
      | position i => exact depth_lt_depthItems (List.mem_of_getElem? down)
  | object members =>
      cases hop with
      | key name => exact depth_lt_depthMembers (Keyed.mem_of_get?_eq_some down)
      | position => cases down
  | _ => cases down

/-- A location has no more hops than the value is deep. -/
theorem length_le_depth {v w : Json} {l : Location} (found : v.at? l = some w) :
    l.length ≤ v.depth := by
  induction l generalizing v with
  | nil => exact Nat.zero_le _
  | cons hop l ih =>
      obtain ⟨u, down, found⟩ := at?_eq_some_cons_iff.1 found
      have shallower := depth_lt_of_down? down
      have inside := ih found
      rw [List.length_cons]
      omega

end JsonSelect.Json
