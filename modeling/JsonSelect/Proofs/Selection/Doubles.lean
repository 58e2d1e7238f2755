/-
# JsonSelect.Proofs.Selection.Doubles -- selection does not look at numbers

* `Path.select_mapNumbers`: a path selects the same values whether their numbers are changed
  before or afterwards.
* `Document.ofMembers_run`: what becomes of any object that is made a document.
-/
import JsonSelect.Document
import JsonSelect.Proofs.Json.Doubles
import JsonSelect.Proofs.Selection.Places

namespace JsonSelect

set_option autoImplicit false

namespace Json

section MapNumbers

variable {f : Number → Number}

theorem member?_mapNumbers (name : String) (v : Json) :
    (v.mapNumbers f).member? name = (v.member? name).map (mapNumbers f) := by
  cases v with
  | object members => exact get?_mapNumbersMembers name members
  | _ => rfl

theorem search_mapNumbers (name : String) (v : Json) :
    (v.mapNumbers f).search name = (v.search name).map (mapNumbers f) := by
  -- The search stops at the same values, since a member is found by its key alone.
  induction v using induction_on_children with
  | step v ih =>
      rw [search_eq, search_eq name v, member?_mapNumbers, children_mapNumbers]
      cases v.member? name with
      | some w => rfl
      | none =>
          simp only [Option.map_none, List.flatMap_map, List.map_flatMap]
          exact List.flatMap_congr fun c child => ih c child

theorem itemsAt_mapNumbers (text : String) (v : Json) :
    (v.mapNumbers f).itemsAt text = (v.itemsAt text).map (mapNumbers f) := by
  cases v with
  | array items =>
      rw [mapNumbers, mapNumbersItems_eq_map, itemsAt, Positions.map_selectText]
      rfl
  | _ => rfl

end MapNumbers

end Json

theorem Segment.select_mapNumbers {f : Number → Number} (segment : Segment) (v : Json) :
    segment.select (v.mapNumbers f) = (segment.select v).map (Json.mapNumbers f) := by
  cases segment with
  | child name => simp [select, Json.member?_mapNumbers, Option.toList_map]
  | descendant name => exact Json.search_mapNumbers name v
  | index text => exact Json.itemsAt_mapNumbers text v

/-- A path selects the same values whatever becomes of their numbers. -/
theorem Path.select_mapNumbers {f : Number → Number} (path : Path) (root : Json) :
    path.select (root.mapNumbers f) = (path.select root).map (Json.mapNumbers f) := by
  induction path generalizing root with
  | nil => rfl
  | cons segment path ih =>
      simp only [select_cons, segment.select_mapNumbers, List.flatMap_map, List.map_flatMap, ih]

theorem Path.select_asDoubles (path : Path) (root : Json) :
    path.select root.asDoubles = (path.select root).map Json.asDoubles := by
  have changed : Json.asDoubles = Json.mapNumbers Number.asDouble :=
    funext Json.asDoubles_eq_mapNumbers
  rw [changed]
  exact path.select_mapNumbers root

namespace Document

/-- **Storing numbers as doubles and selecting commute.**  The matches in a document are
those in the object it was made of, with their numbers stored as doubles, and no whole
number is left in it: every number of a JSON value has a nearest double.  Nothing else
changes at any location, and a document made of the members of a document is the same.  All
this holds of any value, in whatever order its members are. -/
theorem ofMembers_run (object : OrderedObject) :
    (∀ path, (ofMembers object).run path =
        (path.select (.object object.members)).map Json.asDoubles) ∧
      (ofMembers object).root.DoublesOnly ∧
      (∀ path, ∀ v ∈ (ofMembers object).run path, v.DoublesOnly) ∧
      (∀ n : Number, ∃ x, n.toDouble? = some x ∧ n.asDouble = .double x) ∧
      (∀ l, ((ofMembers object).root.at? l).map Json.outline =
        ((Json.object object.members).at? l).map Json.outline) ∧
      ofMembers (ofMembers object).toOrderedObject = ofMembers object ∧
      ∀ root : Json,
        (∀ path : Path, path.select root.asDoubles = (path.select root).map Json.asDoubles) ∧
          root.asDoubles.DoublesOnly ∧
          (∀ l, (root.asDoubles.at? l).map Json.outline = (root.at? l).map Json.outline) ∧
          root.asDoubles.asDoubles = root.asDoubles := by
  have commutes (path : Path) : (ofMembers object).run path =
      (path.select (.object object.members)).map Json.asDoubles :=
    path.select_asDoubles (.object object.members)
  refine ⟨commutes, Json.doublesOnly_asDoubles (.object object.members), ?_, ?_,
    Json.outline_at?_asDoubles (.object object.members), ?_, fun root =>
    ⟨fun path => path.select_asDoubles root, root.doublesOnly_asDoubles,
      root.outline_at?_asDoubles, root.asDoubles_asDoubles⟩⟩
  · intro path v found
    rw [commutes] at found
    obtain ⟨w, -, rfl⟩ := List.mem_map.1 found
    exact w.doublesOnly_asDoubles
  · intro n
    obtain ⟨x, stored⟩ := n.exists_toDouble?
    exact ⟨x, stored, Number.asDouble_of_toDouble? stored⟩
  · have again := Json.asDoubles_asDoubles (.object object.members)
    exact Document.ext (Json.object.inj again) rfl

end Document

end JsonSelect
