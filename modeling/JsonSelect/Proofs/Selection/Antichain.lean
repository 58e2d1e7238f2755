/-
# JsonSelect.Proofs.Selection.Antichain -- matches do not overlap

* `Path.Matches.length_le`: a location has a hop or more for each segment that it matches.
* `Path.totalSize_select_le`: the matches have no more nodes than the value they are in.
* `places_antichain`: the matches stand at different locations in document order, none of
  them inside another.
-/
import JsonSelect.Proofs.Json.Size
import JsonSelect.Proofs.Selection.Matching

namespace JsonSelect

set_option autoImplicit false

/-! ## Lengths -/

theorem Segment.Matches.length_pos {segment : Segment} {v : Json} {l : Location}
    (leads : segment.Matches v l) : 1 ≤ l.length := by
  cases leads <;> simp

/-- Whether a segment searches at any depth. -/
def Segment.IsDescendant : Segment → Prop
  | .descendant _ => True
  | _ => False

theorem Segment.Matches.length_eq {segment : Segment} {v : Json} {l : Location}
    (leads : segment.Matches v l) (direct : ¬ segment.IsDescendant) : l.length = 1 := by
  cases leads with
  | descendant => exact absurd trivial direct
  | _ => rfl

theorem Path.Matches.length_le {path : Path} {root : Json} {l : Location}
    (leads : path.Matches root l) : path.length ≤ l.length := by
  induction leads with
  | nil => exact Nat.le_refl 0
  | cons first here rest ih =>
      have := first.length_pos
      rw [List.length_cons, List.length_append]
      omega

theorem Path.Matches.length_eq {path : Path} {root : Json} {l : Location}
    (leads : path.Matches root l) (direct : ∀ segment ∈ path, ¬ segment.IsDescendant) :
    l.length = path.length := by
  induction leads with
  | nil => rfl
  | cons first here rest ih =>
      obtain ⟨direct, others⟩ := List.forall_mem_cons.1 direct
      rw [List.length_cons, List.length_append, first.length_eq direct, ih others]
      omega

/-! ## Nodes -/

theorem Json.size_le_of_member? {v w : Json} {name : String} (member : v.member? name = some w) :
    w.size ≤ v.size := by
  cases v with
  | object members =>
      have inside : w ∈ members.map Prod.snd :=
        List.mem_map_of_mem (Keyed.mem_of_get?_eq_some member)
      have := totalSize_le_of_sublist (List.singleton_sublist.2 inside)
      rw [totalSize_cons, totalSize_nil] at this
      rw [size, sizeMembers_eq]
      omega
  | _ => cases member

theorem Json.totalSize_search_le (name : String) (v : Json) :
    totalSize (v.search name) ≤ v.size := by
  induction v using induction_on_children with
  | step v ih =>
      rw [search_eq]
      cases member : v.member? name with
      | some w =>
          rw [totalSize_cons, totalSize_nil]
          exact size_le_of_member? member
      | none =>
          have inside : totalSize ((v.children.map Prod.snd).flatMap (search name)) ≤
              totalSize (v.children.map Prod.snd) := by
            refine totalSize_flatMap_le fun w member => ?_
            obtain ⟨c, child, rfl⟩ := List.mem_map.1 member
            exact ih c child
          rw [List.flatMap_map] at inside
          show totalSize (v.children.flatMap fun c => c.2.search name) ≤ v.size
          rw [size_eq]
          omega

theorem Segment.totalSize_select_le (segment : Segment) (v : Json) :
    Json.totalSize (segment.select v) ≤ v.size := by
  cases segment with
  | child name =>
      simp only [select]
      cases member : v.member? name with
      | none => exact Nat.zero_le _
      | some w => simpa using Json.size_le_of_member? member
  | descendant name => exact Json.totalSize_search_le name v
  | index text =>
      cases v with
      | array items =>
          have := Json.totalSize_le_of_sublist (Positions.selectText_sublist text items)
          simp only [select, Json.itemsAt, Json.size]
          omega
      | _ => exact Nat.zero_le _

/-- The matches have no more nodes together than the value in which they are. -/
theorem Path.totalSize_select_le (path : Path) (root : Json) :
    Json.totalSize (path.select root) ≤ root.size := by
  induction path generalizing root with
  | nil => simp
  | cons segment path ih =>
      rw [select_cons]
      exact Nat.le_trans (Json.totalSize_flatMap_le fun v _ => ih v)
        (segment.totalSize_select_le root)

/-! ## The matches of a path -/

/-- What the matches of a path inside `root` are like. -/
structure Path.SortedAntichain (root : Json) (path : Path) (places : List Place) : Prop where
  matching : ∀ p ∈ places, path.Matches root p.location
  standing : ∀ p ∈ places, root.at? p.location = some p.value
  ascending : (places.map Place.location).Pairwise Location.Before
  /-- None is inside another. -/
  apart : (places.map Place.location).Pairwise fun l m => ¬ l <+: m ∧ ¬ m <+: l
  distinct : (places.map Place.location).Nodup
  /-- There is a hop for each segment at least. -/
  long : ∀ p ∈ places, path.length ≤ p.location.length
  /-- There are no other hops, unless a name is searched at any depth. -/
  direct : (∀ segment ∈ path, ¬ segment.IsDescendant) →
    ∀ p ∈ places, p.location.length = path.length

/-- **Matches are a sorted antichain.**  So they have no more nodes together than the root,
and a path that is longer than the root is deep matches nothing. -/
theorem Path.places_antichain (root : OrderedJson) (path : Path) :
    (path.places root.value).map Place.value = path.select root.value ∧
      path.SortedAntichain root.value (path.places root.value) ∧
      Json.totalSize (path.select root.value) ≤ root.value.size ∧
      (root.value.depth < path.length → path.select root.value = []) := by
  obtain ⟨root, ordered⟩ := root
  have sorted := List.pairwise_map.2 (path.leftToRight_places ordered)
  have leads : ∀ p ∈ path.places root, path.Matches root p.location :=
    fun p found => ((path.mem_places_iff ordered).1 found).1
  have standing : ∀ p ∈ path.places root, root.at? p.location = some p.value :=
    fun p found => path.at?_of_mem_places ordered found
  refine ⟨path.map_value_places root, ?_, path.totalSize_select_le root, ?_⟩
  · exact {
      matching := leads
      standing := standing
      ascending := sorted.imp Location.LeftOf.before
      apart := sorted.imp Location.LeftOf.not_prefix
      distinct := sorted.imp Location.LeftOf.ne
      long := fun p found => (leads p found).length_le
      direct := fun direct p found => (leads p found).length_eq direct }
  · intro (tooLong : root.depth < path.length)
    -- a match would stand at a location with as many hops as there are segments
    rw [← path.map_value_places root, List.map_eq_nil_iff, List.eq_nil_iff_forall_not_mem]
    intro p found
    have long := (leads p found).length_le
    have short := Json.length_le_depth (standing p found)
    omega

namespace Example

theorem antichain_in_nested :
    (Path.places nested.value [.descendant "b"]).map Place.value =
        Path.select nested.value [.descendant "b"] ∧
      Path.SortedAntichain nested.value [.descendant "b"]
        (Path.places nested.value [.descendant "b"]) ∧
      Json.totalSize (Path.select nested.value [.descendant "b"]) ≤ nested.value.size ∧
      (nested.value.depth < 1 → Path.select nested.value [.descendant "b"] = []) :=
  Path.places_antichain nested [.descendant "b"]

end Example

end JsonSelect
