/-
# JsonSelect.Proofs.Json.Numbers -- changing the numbers of a value

* `Json.EveryNumber` holds of a value if a property holds of each number in it.
* `Json.mapNumbers` changes each number and nothing else: the same locations lead to the
  same values but for their numbers (`at?_mapNumbers`).
* `Json.Outline` is what a value shows without its numbers and without what is inside it;
  no outline changes (`outline_mapNumbers`).
-/
import JsonSelect.Proofs.Json.Location

namespace JsonSelect

set_option autoImplicit false

theorem Keyed.get?_map {α β : Type} (f : α → β) (key : String) (entries : Keyed α) :
    get? key (entries.map fun e => (e.1, f e.2)) = (get? key entries).map f := by
  induction entries with
  | nil => rfl
  | cons e rest ih =>
      obtain ⟨k, value⟩ := e
      rw [List.map_cons, get?, get?, ih]
      split <;> rfl

namespace Json

/-! ## A property of every number -/

section EveryNumber

variable (P : Number → Prop)

mutual

/-- The property holds of each number in the value. -/
def EveryNumber : Json → Prop
  | .number n => P n
  | .array items => EveryNumberItems items
  | .object members => EveryNumberMembers members
  | _ => True

def EveryNumberItems : List Json → Prop
  | [] => True
  | v :: rest => v.EveryNumber ∧ EveryNumberItems rest

def EveryNumberMembers : List (String × Json) → Prop
  | [] => True
  | (_, v) :: rest => v.EveryNumber ∧ EveryNumberMembers rest

end

variable {P}

theorem everyNumberItems_iff {items : List Json} :
    EveryNumberItems P items ↔ ∀ v ∈ items, v.EveryNumber P := by
  induction items with
  | nil => simp [EveryNumberItems]
  | cons v rest ih => simp [EveryNumberItems, ih]

theorem everyNumberMembers_iff {members : List (String × Json)} :
    EveryNumberMembers P members ↔ ∀ m ∈ members, m.2.EveryNumber P := by
  induction members with
  | nil => simp [EveryNumberMembers]
  | cons m rest ih => simp [EveryNumberMembers, ih]

theorem EveryNumber.of_down? {v w : Json} {hop : Hop} (each : v.EveryNumber P)
    (down : v.down? hop = some w) : w.EveryNumber P := by
  cases v with
  | array items =>
      cases hop with
      | key => cases down
      | position i => exact everyNumberItems_iff.1 each w (List.mem_of_getElem? down)
  | object members =>
      cases hop with
      | key name => exact everyNumberMembers_iff.1 each _ (Keyed.mem_of_get?_eq_some down)
      | position => cases down
  | _ => cases down

theorem EveryNumber.of_at? {v w : Json} {l : Location} (each : v.EveryNumber P)
    (found : v.at? l = some w) : w.EveryNumber P := by
  induction l generalizing v with
  | nil =>
      cases found
      exact each
  | cons hop l ih =>
      obtain ⟨u, down, found⟩ := at?_eq_some_cons_iff.1 found
      exact ih (each.of_down? down) found

end EveryNumber

/-! ## Other numbers -/

section MapNumbers

variable (f : Number → Number)

mutual

/-- The value with each number changed. -/
def mapNumbers : Json → Json
  | .number n => .number (f n)
  | .array items => .array (mapNumbersItems items)
  | .object members => .object (mapNumbersMembers members)
  | other => other

def mapNumbersItems : List Json → List Json
  | [] => []
  | v :: rest => v.mapNumbers :: mapNumbersItems rest

def mapNumbersMembers : List (String × Json) → List (String × Json)
  | [] => []
  | (key, v) :: rest => (key, v.mapNumbers) :: mapNumbersMembers rest

end

theorem mapNumbersItems_eq_map (items : List Json) :
    mapNumbersItems f items = items.map (mapNumbers f) := by
  induction items with
  | nil => rfl
  | cons v rest ih => rw [mapNumbersItems, ih, List.map_cons]

theorem mapNumbersMembers_eq_map (members : List (String × Json)) :
    mapNumbersMembers f members = members.map fun m => (m.1, m.2.mapNumbers f) := by
  induction members with
  | nil => rfl
  | cons m rest ih => rw [mapNumbersMembers, ih, List.map_cons]

variable {f}

mutual

theorem everyNumber_mapNumbers {P : Number → Prop} (each : ∀ n, P (f n)) :
    (v : Json) → (v.mapNumbers f).EveryNumber P
  | .null | .bool _ | .string _ => trivial
  | .number n => each n
  | .array items => everyNumberItems_mapNumbers each items
  | .object members => everyNumberMembers_mapNumbers each members

theorem everyNumberItems_mapNumbers {P : Number → Prop} (each : ∀ n, P (f n)) :
    (items : List Json) → EveryNumberItems P (mapNumbersItems f items)
  | [] => trivial
  | v :: rest => ⟨everyNumber_mapNumbers each v, everyNumberItems_mapNumbers each rest⟩

theorem everyNumberMembers_mapNumbers {P : Number → Prop} (each : ∀ n, P (f n)) :
    (members : List (String × Json)) → EveryNumberMembers P (mapNumbersMembers f members)
  | [] => trivial
  | (_, v) :: rest => ⟨everyNumber_mapNumbers each v, everyNumberMembers_mapNumbers each rest⟩

end

mutual

/-- Two changes in a row are one. -/
theorem mapNumbers_mapNumbers (g : Number → Number) : (v : Json) →
    (v.mapNumbers f).mapNumbers g = v.mapNumbers fun n => g (f n)
  | .null | .bool _ | .string _ | .number _ => rfl
  | .array items => congrArg array (mapNumbersItems_mapNumbers g items)
  | .object members => congrArg object (mapNumbersMembers_mapNumbers g members)

theorem mapNumbersItems_mapNumbers (g : Number → Number) : (items : List Json) →
    mapNumbersItems g (mapNumbersItems f items) = mapNumbersItems (fun n => g (f n)) items
  | [] => rfl
  | v :: rest => by
      rw [mapNumbersItems, mapNumbersItems, mapNumbersItems, mapNumbers_mapNumbers g v,
        mapNumbersItems_mapNumbers g rest]

theorem mapNumbersMembers_mapNumbers (g : Number → Number) : (members : List (String × Json)) →
    mapNumbersMembers g (mapNumbersMembers f members) =
      mapNumbersMembers (fun n => g (f n)) members
  | [] => rfl
  | (_, v) :: rest => by
      rw [mapNumbersMembers, mapNumbersMembers, mapNumbersMembers, mapNumbers_mapNumbers g v,
        mapNumbersMembers_mapNumbers g rest]

end

/-! ## Locations -/

theorem get?_mapNumbersMembers (key : String) (members : List (String × Json)) :
    Keyed.get? key (mapNumbersMembers f members) =
      (Keyed.get? key members).map (mapNumbers f) := by
  rw [mapNumbersMembers_eq_map, Keyed.get?_map]

theorem down?_mapNumbers (v : Json) (hop : Hop) :
    (v.mapNumbers f).down? hop = (v.down? hop).map (mapNumbers f) := by
  cases v with
  | array items =>
      cases hop with
      | key => rfl
      | position i => simp [mapNumbers, down?, mapNumbersItems_eq_map]
  | object members =>
      cases hop with
      | key name => exact get?_mapNumbersMembers name members
      | position => rfl
  | _ => cases hop <;> rfl

/-- A location leads to the same value before and after, but for its numbers. -/
theorem at?_mapNumbers (v : Json) (l : Location) :
    (v.mapNumbers f).at? l = (v.at? l).map (mapNumbers f) := by
  induction l generalizing v with
  | nil => rfl
  | cons hop l ih =>
      rw [at?_cons, at?_cons, down?_mapNumbers]
      cases v.down? hop with
      | none => rfl
      | some w => exact ih w

theorem children_mapNumbers (v : Json) :
    (v.mapNumbers f).children = v.children.map fun c => (c.1, c.2.mapNumbers f) := by
  cases v with
  | array items =>
      simp [mapNumbers, children, mapNumbersItems_eq_map, List.zipIdx_map, Function.comp_def]
  | object members => simp [mapNumbers, children, mapNumbersMembers_eq_map, Function.comp_def]
  | _ => rfl

theorem ascending_mapNumbersMembers {members : List (String × Json)}
    (ascending : Keyed.Ascending members) : Keyed.Ascending (mapNumbersMembers f members) := by
  rw [mapNumbersMembers_eq_map]
  exact List.pairwise_map.2 ascending

/-! ## Outlines -/

/-- What is seen of a value without its numbers and without going inside it. -/
inductive Outline where
  | null
  | bool (value : Bool)
  | number
  | string (value : String)
  | array (length : Nat)
  | object (keys : List String)

def outline : Json → Outline
  | .null => .null
  | .bool b => .bool b
  | .number _ => .number
  | .string s => .string s
  | .array items => .array items.length
  | .object members => .object (members.map Prod.fst)

theorem outline_mapNumbers (v : Json) : (v.mapNumbers f).outline = v.outline := by
  cases v with
  | array items => simp [mapNumbers, outline, mapNumbersItems_eq_map]
  | object members => simp [mapNumbers, outline, mapNumbersMembers_eq_map]
  | _ => rfl

theorem outline_at?_mapNumbers (v : Json) (l : Location) :
    ((v.mapNumbers f).at? l).map outline = (v.at? l).map outline := by
  rw [at?_mapNumbers, Option.map_map, Function.comp_def]
  simp only [outline_mapNumbers]

end MapNumbers

end Json

end JsonSelect
