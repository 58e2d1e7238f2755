/-
# JsonSelect.Proofs.Selection.Widening -- a wider path keeps the matches

A path is widened by searching a name at any depth, where it was looked up in the value
itself, and by taking all items, where a text between brackets selected some.  Any number of
its segments may be widened at once.

* `Segment.WidensTo.places_sublist`: a wider segment selects what the segment does, and more.
* `Path.places_sublist`: so does a wider path, though from the first wider segment on it
  follows values that the path never meets.
-/
import JsonSelect.Proofs.Selection.Matching
import Mathlib.Data.List.Flatten

namespace JsonSelect

set_option autoImplicit false

/-- How a segment may be replaced by one that selects no less. -/
inductive Segment.WidensTo : Segment → Segment → Prop
  | same (segment : Segment) : WidensTo segment segment
  | anyDepth (name : String) : WidensTo (.child name) (.descendant name)
  | allItems (text : String) : WidensTo (.index text) (.index "*")

/-- Some segments of the path are widened and the others are kept. -/
def Path.WidensTo (path wider : Path) : Prop := List.Forall₂ Segment.WidensTo path wider

/-! ## One segment -/

theorem Positions.selectText_star {α : Type} (items : List α) : selectText "*" items = items := rfl

/-- A member is what the search for its name finds. -/
theorem Json.places_child_sublist (name : String) (v : Json) :
    ((Segment.child name).places v).Sublist (v.searchPlaces name) := by
  rw [Segment.places, searchPlaces_eq]
  cases v.member? name with
  | none => exact List.nil_sublist _
  | some w => exact List.Sublist.refl _

theorem Json.itemPlaces_sublist (text : String) (v : Json) :
    (v.itemPlaces text).Sublist (v.itemPlaces "*") := by
  cases v with
  | array items =>
      rw [itemPlaces, itemPlaces, Positions.selectText_star]
      exact (Positions.selectText_sublist text items.zipIdx).map _
  | _ => exact List.Sublist.refl _

/-- A wider segment selects at the same places and possibly at others. -/
theorem Segment.WidensTo.places_sublist {segment wider : Segment} (widens : segment.WidensTo wider)
    (v : Json) : (segment.places v).Sublist (wider.places v) := by
  cases widens with
  | same => exact List.Sublist.refl _
  | anyDepth name => exact v.places_child_sublist name
  | allItems text => exact v.itemPlaces_sublist text

/-! ## Paths -/

/-- A wider path leads to the same places and possibly to others. -/
theorem Path.places_sublist {path wider : Path} (widens : path.WidensTo wider) (root : Json) :
    (path.places root).Sublist (wider.places root) := by
  induction widens generalizing root with
  | nil => exact List.Sublist.refl _
  | @cons segment segment' path wider first others ih =>
      -- The wider segment leads to more values, and in each of them the rest selects more.
      have further : ∀ p ∈ segment.places root,
          ((Path.places p.value path).map (Place.below p.location)).Sublist
            ((Path.places p.value wider).map (Place.below p.location)) :=
        fun p _ => (ih p.value).map _
      rw [places, places]
      exact (List.Sublist.flatMap_right _ further).trans
        ((first.places_sublist root).flatMap _)

/-- **A wider path keeps the matches.**  What a path selects stands at locations which are
among those of any wider path, in the same order. -/
theorem Path.select_widened (root : OrderedJson) {path wider : Path}
    (widens : path.WidensTo wider) :
    (path.places root.value).map Place.value = path.select root.value ∧
      (wider.places root.value).map Place.value = wider.select root.value ∧
      (∀ p, p ∈ path.places root.value ↔
        path.Matches root.value p.location ∧ root.value.at? p.location = some p.value) ∧
      (∀ p, p ∈ wider.places root.value ↔
        wider.Matches root.value p.location ∧ root.value.at? p.location = some p.value) ∧
      ((path.places root.value).map Place.location).Sublist
        ((wider.places root.value).map Place.location) := by
  obtain ⟨root, ordered⟩ := root
  refine ⟨path.map_value_places root, wider.map_value_places root, ?_, ?_, ?_⟩
  · exact fun p => path.mem_places_iff ordered
  · exact fun p => wider.mem_places_iff ordered
  · exact (path.places_sublist widens root).map _

namespace Example

/-- Both segments are widened; of the matches inside `"a"` the path has the last one only. -/
theorem widened_in_nested :
    Path.WidensTo [.child "a", .index "-1"] [.descendant "a", .index "*"] ∧
      (Path.select nested.value [.child "a", .index "-1"]).length = 1 ∧
      (Path.select nested.value [.descendant "a", .index "*"]).length = 2 ∧
      ((Path.places nested.value [.child "a", .index "-1"]).map Place.location).Sublist
        ((Path.places nested.value [.descendant "a", .index "*"]).map Place.location) := by
  have widens : Path.WidensTo [.child "a", .index "-1"] [.descendant "a", .index "*"] :=
    .cons (.anyDepth "a") (.cons (.allItems "-1") .nil)
  obtain ⟨-, -, -, -, sublist⟩ := Path.select_widened nested widens
  exact ⟨widens, by decide +kernel, by decide +kernel, sublist⟩

end Example

end JsonSelect
