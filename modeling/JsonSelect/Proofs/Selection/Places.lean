/-
# JsonSelect.Proofs.Selection.Places -- where the selected values stand

`Path.places` goes the way of `Path.select` and writes down the location of every value
on it.

* `map_value_places`: without the locations it is `Path.select`.
* `at?_of_mem_places`: what it notes at a location is what stands there.
* `leftToRight_places`: each location is left of all later ones, so the matches come
  in document order and none of them is inside another.  One segment keeps this because
  the search for a name stops at the first object that has it, and a path keeps it because
  locations that have parted stay apart (`Location.LeftOf.append`).
-/
import JsonSelect.Proofs.Json.Location
import JsonSelect.Proofs.Selection.Positions
import JsonSelect.Selection.Basic
import Mathlib.Data.List.Basic

namespace JsonSelect

set_option autoImplicit false

/-- A value with its location in another one. -/
structure Place where
  location : Location
  value : Json

namespace Place

/-- The place as seen from further above. -/
def below (start : Location) (p : Place) : Place := ⟨start ++ p.location, p.value⟩

@[simp] theorem location_below (start : Location) (p : Place) :
    (p.below start).location = start ++ p.location := rfl

@[simp] theorem value_below (start : Location) (p : Place) : (p.below start).value = p.value := rfl

@[simp] theorem map_value_map_below (start : Location) (places : List Place) :
    (places.map (below start)).map value = places.map value := by
  rw [List.map_map]; rfl

end Place

/-! ## Selection with locations -/

namespace Json

mutual

/-- What `search` finds, with the locations. -/
def searchPlaces (name : String) : Json → List Place
  | .array items => searchItemPlaces name 0 items
  | .object members =>
      match Keyed.get? name members with
      | some v => [⟨[.key name], v⟩]
      | none => searchMemberPlaces name members
  | _ => []

/-- The same for items of which the first has the position `i`. -/
def searchItemPlaces (name : String) (i : Nat) : List Json → List Place
  | [] => []
  | v :: rest =>
      (v.searchPlaces name).map (.below [.position i]) ++ searchItemPlaces name (i + 1) rest

def searchMemberPlaces (name : String) : List (String × Json) → List Place
  | [] => []
  | (key, v) :: rest =>
      (v.searchPlaces name).map (.below [.key key]) ++ searchMemberPlaces name rest

end

/-- The items that a text between brackets selects, with the locations. -/
def itemPlaces (text : String) : Json → List Place
  | .array items => (Positions.selectText text items.zipIdx).map fun (v, i) => ⟨[.position i], v⟩
  | _ => []

end Json

/-- What a segment selects inside a value, with the locations. -/
def Segment.places (v : Json) : Segment → List Place
  | .child name => (v.member? name).toList.map fun w => ⟨[.key name], w⟩
  | .descendant name => v.searchPlaces name
  | .index text => v.itemPlaces text

/-- What a path selects inside a value, with the locations. -/
def Path.places (root : Json) : Path → List Place
  | [] => [⟨[], root⟩]
  | segment :: path =>
      (segment.places root).flatMap fun p => (places p.value path).map (.below p.location)

/-! ## The search along children -/

namespace Json

theorem searchItems_eq_flatMap (name : String) (items : List Json) :
    searchItems name items = items.flatMap (search name) := by
  induction items with
  | nil => rfl
  | cons v rest ih => rw [searchItems, ih, List.flatMap_cons]

theorem searchMembers_eq_flatMap (name : String) (members : List (String × Json)) :
    searchMembers name members = members.flatMap fun m => m.2.search name := by
  induction members with
  | nil => rfl
  | cons m rest ih => rw [searchMembers, ih, List.flatMap_cons]

theorem searchItemPlaces_eq_flatMap (name : String) (i : Nat) (items : List Json) :
    searchItemPlaces name i items =
      (items.zipIdx i).flatMap fun c => (c.1.searchPlaces name).map (.below [.position c.2]) := by
  induction items generalizing i with
  | nil => rfl
  | cons v rest ih => rw [searchItemPlaces, ih, List.zipIdx_cons, List.flatMap_cons]

theorem searchMemberPlaces_eq_flatMap (name : String) (members : List (String × Json)) :
    searchMemberPlaces name members =
      members.flatMap fun m => (m.2.searchPlaces name).map (.below [.key m.1]) := by
  induction members with
  | nil => rfl
  | cons m rest ih => rw [searchMemberPlaces, ih, List.flatMap_cons]

theorem search_eq (name : String) (v : Json) :
    v.search name = match v.member? name with
      | some w => [w]
      | none => v.children.flatMap fun c => c.2.search name := by
  cases v with
  | array items =>
      simp only [search, member?, children, searchItems_eq_flatMap, List.flatMap_map]
      rw [← List.flatMap_map Prod.fst (search name), List.zipIdx_map_fst]
  | object members =>
      rw [search, searchMembers_eq_flatMap, children, List.flatMap_map]
      rfl
  | _ => rfl

theorem searchPlaces_eq (name : String) (v : Json) :
    v.searchPlaces name = match v.member? name with
      | some w => [⟨[.key name], w⟩]
      | none => v.children.flatMap fun c => (c.2.searchPlaces name).map (.below [c.1]) := by
  cases v with
  | array items =>
      simp only [searchPlaces, member?, children, searchItemPlaces_eq_flatMap, List.flatMap_map]
  | object members =>
      simp only [searchPlaces, member?, children, searchMemberPlaces_eq_flatMap, List.flatMap_map]
  | _ => rfl

end Json

/-! ## Places and values -/

theorem Json.map_value_searchPlaces (name : String) (v : Json) :
    (v.searchPlaces name).map Place.value = v.search name := by
  induction v using Json.induction_on_children with
  | step v ih =>
      rw [searchPlaces_eq, search_eq]
      cases v.member? name with
      | some w => rfl
      | none =>
          simp only [List.map_flatMap, Place.map_value_map_below]
          exact List.flatMap_congr fun c child => ih c child

theorem Segment.map_value_places (v : Json) (segment : Segment) :
    (segment.places v).map Place.value = segment.select v := by
  cases segment with
  | child name => simp [places, select, Function.comp_def]
  | descendant name => exact v.map_value_searchPlaces name
  | index text =>
      cases v with
      | array items =>
          have naturality := Positions.map_selectText Prod.fst text items.zipIdx
          rw [List.zipIdx_map_fst] at naturality
          simp only [places, Json.itemPlaces, select, Json.itemsAt, naturality, List.map_map]
          rfl
      | _ => rfl

namespace Path

@[simp] theorem select_nil (root : Json) : select root [] = [root] := rfl

/-- The values on the way to a match can be followed one by one. -/
theorem foldl_select_eq_flatMap (path : Path) (current : List Json) :
    path.foldl (fun current segment => current.flatMap segment.select) current =
      current.flatMap (select · path) := by
  induction path generalizing current with
  | nil => simp
  | cons segment path ih =>
      rw [List.foldl_cons, ih, List.flatMap_assoc]
      congr 1
      funext v
      rw [select, List.foldl_cons, ih, List.flatMap_singleton]

theorem select_cons (root : Json) (segment : Segment) (path : Path) :
    select root (segment :: path) = (segment.select root).flatMap (select · path) := by
  rw [select, List.foldl_cons, foldl_select_eq_flatMap, List.flatMap_singleton]

/-- The places carry the values that the path selects. -/
theorem map_value_places (root : Json) (path : Path) :
    (path.places root).map Place.value = path.select root := by
  induction path generalizing root with
  | nil => rfl
  | cons segment path ih =>
      simp only [places, List.map_flatMap, Place.map_value_map_below, ih]
      rw [select_cons, ← segment.map_value_places root, List.flatMap_map]

end Path

/-! ## What stands at a place -/

namespace Json

theorem at?_below {v w : Json} {l : Location} {p : Place} (found : v.at? l = some w)
    (placed : w.at? p.location = some p.value) :
    v.at? (p.below l).location = some (p.below l).value := by
  rw [Place.location_below, at?_append, found]
  exact placed

theorem at?_key (v : Json) (name : String) : v.at? [.key name] = v.member? name := by
  cases v <;> simp [at?_cons, down?, member?]

theorem at?_of_mem_searchPlaces {name : String} {v : Json} (ordered : v.Ordered) {p : Place}
    (found : p ∈ v.searchPlaces name) : v.at? p.location = some p.value := by
  induction v using induction_on_children generalizing p with
  | step v ih =>
      rw [searchPlaces_eq] at found
      split at found
      · rename_i w holds
        cases List.mem_singleton.1 found
        rw [at?_key, holds]
      · obtain ⟨⟨hop, w⟩, child, found⟩ := List.mem_flatMap.1 found
        obtain ⟨q, inside, rfl⟩ := List.mem_map.1 found
        have down := (mem_children_iff ordered).1 child
        refine at?_below ?_ (ih (hop, w) child (ordered.of_down? down) inside)
        simp [at?_cons, down]

end Json

theorem Segment.at?_of_mem_places {segment : Segment} {v : Json} (ordered : v.Ordered) {p : Place}
    (found : p ∈ segment.places v) : v.at? p.location = some p.value := by
  cases segment with
  | child name =>
      simp only [places, List.mem_map, Option.mem_toList] at found
      obtain ⟨w, holds, rfl⟩ := found
      rw [Json.at?_key, holds]
  | descendant name => exact Json.at?_of_mem_searchPlaces ordered found
  | index text =>
      cases v with
      | array items =>
          simp only [places, Json.itemPlaces, List.mem_map] at found
          obtain ⟨⟨w, i⟩, selected, rfl⟩ := found
          have here := (Positions.mem_selectText_zipIdx_iff.1 selected).1
          rw [Json.at?_position, here]
      | _ => cases found

/-- Every match is the value at its location. -/
theorem Path.at?_of_mem_places {path : Path} {root : Json} (ordered : root.Ordered) {p : Place}
    (found : p ∈ path.places root) : root.at? p.location = some p.value := by
  induction path generalizing root p with
  | nil => cases List.mem_singleton.1 found; rfl
  | cons segment path ih =>
      obtain ⟨q, first, found⟩ := List.mem_flatMap.1 found
      obtain ⟨p, inside, rfl⟩ := List.mem_map.1 found
      have here := segment.at?_of_mem_places ordered first
      exact Json.at?_below here (ih (ordered.of_at? here) inside)

/-! ## Places in document order -/

/-- Each place is left of all later ones. -/
def LeftToRight (places : List Place) : Prop :=
  places.Pairwise fun p q => p.location.LeftOf q.location

theorem LeftToRight.map_below {places : List Place} (sorted : LeftToRight places)
    (start : Location) : LeftToRight (places.map (.below start)) :=
  List.pairwise_map.2 (sorted.imp fun parted => parted.append_left start)

/-- Places found one after the other inside places that have parted. -/
theorem LeftToRight.flatMap {places : List Place} (sorted : LeftToRight places)
    {inner : Place → List Place} (each : ∀ p ∈ places, LeftToRight (inner p)) :
    LeftToRight (places.flatMap fun p => (inner p).map (.below p.location)) := by
  refine List.pairwise_flatMap.2 ⟨fun p member => (each p member).map_below _, ?_⟩
  refine sorted.imp fun parted => ?_
  intro a inFirst b inSecond
  obtain ⟨a, -, rfl⟩ := List.mem_map.1 inFirst
  obtain ⟨b, -, rfl⟩ := List.mem_map.1 inSecond
  exact parted.append _ _

theorem Json.leftToRight_searchPlaces (name : String) {v : Json} (ordered : v.Ordered) :
    LeftToRight (v.searchPlaces name) := by
  induction v using induction_on_children with
  | step v ih =>
      rw [searchPlaces_eq]
      split
      · exact List.pairwise_singleton _ _
      · -- the children are places one hop down, and have parted at that hop
        have sorted : LeftToRight (v.children.map fun c => ⟨[c.1], c.2⟩) :=
          List.pairwise_map.2 ((pairwise_children ordered).imp fun before => .turn before)
        have each : ∀ p ∈ v.children.map fun c => (⟨[c.1], c.2⟩ : Place),
            LeftToRight (p.value.searchPlaces name) := by
          intro p member
          obtain ⟨c, child, rfl⟩ := List.mem_map.1 member
          exact ih c child (ordered.of_down? ((mem_children_iff ordered).1 child))
        simpa only [List.flatMap_map] using sorted.flatMap each

theorem Segment.leftToRight_places (segment : Segment) {v : Json} (ordered : v.Ordered) :
    LeftToRight (segment.places v) := by
  cases segment with
  | child name =>
      simp only [places]
      cases v.member? name <;> simp [LeftToRight]
  | descendant name => exact Json.leftToRight_searchPlaces name ordered
  | index text =>
      cases v with
      | array items =>
          have sorted := (Json.pairwise_zipIdx items).sublist
            (Positions.selectText_sublist text items.zipIdx)
          exact List.pairwise_map.2 (sorted.imp fun before => .turn before)
      | _ => exact .nil

/-- The matches of a path come in document order, and none is inside another. -/
theorem Path.leftToRight_places (path : Path) {root : Json} (ordered : root.Ordered) :
    LeftToRight (path.places root) := by
  induction path generalizing root with
  | nil => exact List.pairwise_singleton _ _
  | cons segment path ih =>
      refine (segment.leftToRight_places ordered).flatMap fun p member => ih ?_
      exact ordered.of_at? (segment.at?_of_mem_places ordered member)

end JsonSelect
