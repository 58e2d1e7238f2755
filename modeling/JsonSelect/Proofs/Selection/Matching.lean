/-
# JsonSelect.Proofs.Selection.Matching -- which locations a path matches

`Segment.Matches` and `Path.Matches` say of a location, without any search, whether a
path leads to it: a path matches a location that falls into one piece for each of its
segments.

* `mem_places_iff`: the places of a path are the locations that it matches, with what
  stands there.
* `select_eq_values_at_matches`: the values that a path selects are those at the
  locations it matches, each once and in document order.
-/
import JsonSelect.Proofs.Selection.Places

namespace JsonSelect

set_option autoImplicit false

/-- The value is an object that has a member with this name. -/
def Json.Holds (v : Json) (name : String) : Prop := ∃ w, v.member? name = some w

/-- How a location matches a segment, as seen from the value that it starts in. -/
inductive Segment.Matches (v : Json) : Segment → Location → Prop
  | child {name : String} (holds : v.Holds name) : Matches v (.child name) [.key name]
  /-- A route to an object that holds the name, with none on the way that does. -/
  | descendant {name : String} {route : Location} {holder : Json}
      (here : v.at? route = some holder) (holds : holder.Holds name)
      (first : ∀ above passed, above <+: route → above ≠ route →
        v.at? above = some passed → ¬ passed.Holds name) :
      Matches v (.descendant name) (route ++ [.key name])
  | index {text : String} {items : List Json} {i : Nat} (array : v = .array items)
      (picks : Positions.Picks text items.length i) : Matches v (.index text) [.position i]

/-- How a location matches a path: a piece of it for each segment, one after the other. -/
inductive Path.Matches : Json → Path → Location → Prop
  | nil {root : Json} : Matches root [] []
  | cons {root v : Json} {segment : Segment} {path : Path} {l m : Location}
      (first : segment.Matches root l) (here : root.at? l = some v) (rest : Matches v path m) :
      Matches root (segment :: path) (l ++ m)

/-! ## One segment -/

namespace Segment

/-- An object that holds the name ends the search at once. -/
theorem matches_descendant_iff_of_holds {v : Json} {name : String} {l : Location}
    (holds : v.Holds name) : (descendant name).Matches v l ↔ l = [.key name] := by
  constructor
  · intro found
    cases found with
    | @descendant _ route holder here _ first =>
        cases route with
        | nil => rfl
        | cons hop route => exact absurd holds (first [] v List.nil_prefix (by simp) rfl)
  · rintro rfl
    refine @Matches.descendant v name [] v rfl holds fun above _ inside strictly => ?_
    exact absurd (List.prefix_nil.1 inside) strictly

/-- In any other value the search goes on in its children. -/
theorem matches_descendant_iff_of_not_holds {v : Json} {name : String} {l : Location}
    (holdsNot : ¬ v.Holds name) : (descendant name).Matches v l ↔
      ∃ hop w m, v.down? hop = some w ∧ (descendant name).Matches w m ∧ l = hop :: m := by
  constructor
  · intro found
    cases found with
    | @descendant _ route holder here holds first =>
        cases route with
        | nil => cases here; exact absurd holds holdsNot
        | cons hop route =>
            obtain ⟨w, down, here⟩ := Json.at?_eq_some_cons_iff.1 here
            refine ⟨hop, w, route ++ [.key name], down, .descendant here holds ?_, rfl⟩
            intro above passed inside strictly found
            refine first (hop :: above) passed ?_ (by simpa using strictly) ?_
            · simpa using inside
            · exact Json.at?_eq_some_cons_iff.2 ⟨w, down, found⟩
  · rintro ⟨hop, w, m, down, found, rfl⟩
    cases found with
    | @descendant _ route holder here holds first =>
        have here : v.at? (hop :: route) = some holder :=
          Json.at?_eq_some_cons_iff.2 ⟨w, down, here⟩
        refine .descendant here holds ?_
        intro above passed inside strictly found
        cases above with
        | nil => cases found; exact holdsNot
        | cons hop' above =>
            obtain ⟨rfl, deeper⟩ := List.cons_prefix_cons.1 inside
            obtain ⟨u, down', reached⟩ := Json.at?_eq_some_cons_iff.1 found
            cases down.symm.trans down'
            exact first above passed deeper (by simpa using strictly) reached

end Segment

theorem Json.mem_searchPlaces_iff {name : String} {v : Json} (ordered : v.Ordered) {p : Place} :
    p ∈ v.searchPlaces name ↔
      (Segment.descendant name).Matches v p.location ∧ v.at? p.location = some p.value := by
  induction v using induction_on_children generalizing p with
  | step v ih =>
      obtain ⟨l, w⟩ := p
      rw [searchPlaces_eq]
      cases member : v.member? name with
      | some u =>
          rw [Segment.matches_descendant_iff_of_holds ⟨u, member⟩]
          simp only [List.mem_singleton, Place.mk.injEq]
          constructor
          · rintro ⟨rfl, rfl⟩
            exact ⟨rfl, (at?_key v name).trans member⟩
          · rintro ⟨rfl, here⟩
            rw [at?_key, member] at here
            cases here
            exact ⟨rfl, rfl⟩
      | none =>
          have holdsNot : ¬ v.Holds name := by rintro ⟨u, holds⟩; simp [member] at holds
          rw [Segment.matches_descendant_iff_of_not_holds holdsNot]
          simp only [List.mem_flatMap, List.mem_map]
          constructor
          · rintro ⟨⟨hop, u⟩, child, ⟨m, u'⟩, found, same⟩
            cases same
            have down := (mem_children_iff ordered).1 child
            obtain ⟨leads, here⟩ := (ih (hop, u) child (ordered.of_down? down)).1 found
            exact ⟨⟨hop, u, m, down, leads, rfl⟩, at?_eq_some_cons_iff.2 ⟨u, down, here⟩⟩
          · rintro ⟨⟨hop, u, m, down, leads, rfl⟩, here⟩
            obtain ⟨u', down', here⟩ := at?_eq_some_cons_iff.1 here
            cases down.symm.trans down'
            have child := (mem_children_iff ordered).2 down
            have found : ⟨m, w⟩ ∈ u.searchPlaces name :=
              (ih (hop, u) child (ordered.of_down? down)).2 ⟨leads, here⟩
            exact ⟨(hop, u), child, ⟨m, w⟩, found, rfl⟩

theorem Segment.mem_places_iff {segment : Segment} {v : Json} (ordered : v.Ordered) {p : Place} :
    p ∈ segment.places v ↔ segment.Matches v p.location ∧ v.at? p.location = some p.value := by
  cases segment with
  | child name =>
      simp only [places, List.mem_map, Option.mem_toList]
      constructor
      · rintro ⟨w, member, rfl⟩
        exact ⟨.child ⟨w, member⟩, (Json.at?_key v name).trans member⟩
      · rintro ⟨leads, here⟩
        obtain ⟨l, w⟩ := p
        cases leads
        exact ⟨w, (Json.at?_key v name).symm.trans here, rfl⟩
  | descendant name => exact Json.mem_searchPlaces_iff ordered
  | index text =>
      constructor
      · intro found
        refine ⟨?_, at?_of_mem_places ordered found⟩
        cases v with
        | array items =>
            simp only [places, Json.itemPlaces, List.mem_map] at found
            obtain ⟨⟨w, i⟩, selected, rfl⟩ := found
            exact .index rfl (Positions.mem_selectText_zipIdx_iff.1 selected).2
        | _ => cases found
      · rintro ⟨leads, here⟩
        obtain ⟨l, w⟩ := p
        cases leads with
        | @index _ items i array picks =>
            subst array
            rw [Json.at?_position] at here
            simp only [places, Json.itemPlaces, List.mem_map]
            exact ⟨(w, i), Positions.mem_selectText_zipIdx_iff.2 ⟨here, picks⟩, rfl⟩

/-- The places of a path are the locations that it matches. -/
theorem Path.mem_places_iff {path : Path} {root : Json} (ordered : root.Ordered) {p : Place} :
    p ∈ path.places root ↔ path.Matches root p.location ∧ root.at? p.location = some p.value := by
  induction path generalizing root p with
  | nil =>
      obtain ⟨l, w⟩ := p
      simp only [places, List.mem_singleton, Place.mk.injEq]
      constructor
      · rintro ⟨rfl, rfl⟩
        exact ⟨.nil, rfl⟩
      · rintro ⟨leads, here⟩
        cases leads
        cases here
        exact ⟨rfl, rfl⟩
  | cons segment path ih =>
      simp only [places, List.mem_flatMap, List.mem_map]
      constructor
      · rintro ⟨⟨l, v⟩, first, ⟨m, w⟩, rest, rfl⟩
        obtain ⟨leads, here⟩ := (segment.mem_places_iff ordered).1 first
        obtain ⟨leads', here'⟩ := (ih (ordered.of_at? here)).1 rest
        exact ⟨.cons leads here leads', Json.at?_below here here'⟩
      · rintro ⟨leads, here⟩
        obtain ⟨_, w⟩ := p
        cases leads with
        | @cons _ v _ _ l m first there rest =>
            have here : root.at? (l ++ m) = some w := here
            rw [Json.at?_append, there] at here
            have ordered' := ordered.of_at? there
            exact ⟨⟨l, v⟩, (segment.mem_places_iff ordered).2 ⟨first, there⟩,
              ⟨m, w⟩, (ih ordered').2 ⟨rest, here⟩, rfl⟩

/-! ## Every matching location holds a value -/

theorem Segment.Matches.exists_at? {segment : Segment} {v : Json} {l : Location}
    (leads : segment.Matches v l) : ∃ w, v.at? l = some w := by
  cases leads with
  | @child name holds => rw [Json.at?_key]; exact holds
  | @descendant name route holder here holds first =>
      obtain ⟨w, member⟩ := holds
      exact ⟨w, by rw [Json.at?_append, here, Option.bind_some, Json.at?_key, member]⟩
  | @index text items i array picks =>
      obtain ⟨positions, -, covers⟩ := picks
      exact ⟨_, by rw [array, Json.at?_position, List.getElem?_eq_getElem covers.lt]⟩

theorem Path.Matches.exists_at? {path : Path} {root : Json} {l : Location}
    (leads : path.Matches root l) : ∃ w, root.at? l = some w := by
  induction leads with
  | nil => exact ⟨_, rfl⟩
  | cons first here rest ih => rw [Json.at?_append, here]; exact ih

/-! ## The matches in document order -/

/-- **Selection is matching.**  The values that a path selects are those at the locations
which the path matches, each location once and all of them in document order. -/
theorem Path.select_eq_values_at_matches (root : OrderedJson) (path : Path) :
    ∃ locations : List Location,
      locations.Pairwise Location.Before ∧ locations.Nodup ∧
      (∀ l, l ∈ locations ↔ path.Matches root.value l) ∧
      (path.select root.value).map some = locations.map root.value.at? := by
  obtain ⟨root, ordered⟩ := root
  have sorted := List.pairwise_map.2 (path.leftToRight_places ordered)
  refine ⟨(path.places root).map Place.location, ?_, ?_, fun l => ?_, ?_⟩
  · exact sorted.imp Location.LeftOf.before
  · exact sorted.imp Location.LeftOf.ne
  · constructor
    · intro listed
      obtain ⟨p, found, rfl⟩ := List.mem_map.1 listed
      exact ((path.mem_places_iff ordered).1 found).1
    · intro leads
      obtain ⟨v, here⟩ := leads.exists_at?
      exact List.mem_map.2 ⟨⟨l, v⟩, (path.mem_places_iff ordered).2 ⟨leads, here⟩, rfl⟩
  · rw [← path.map_value_places root, List.map_map, List.map_map]
    exact List.map_congr_left fun p found => (path.at?_of_mem_places ordered found).symm

namespace Example

/-- One name at several depths, on some ways twice. -/
def nested : OrderedJson where
  value := .object [
    ("a", .array [.bool true, .object [("b", .array [.null, .object [("b", .null)]])]]),
    ("c", .object [("b", .string "x"), ("d", .object [("b", .null)])])]
  ordered := by decide +kernel

theorem select_in_nested :
    ∃ locations : List Location,
      locations.Pairwise Location.Before ∧ locations.Nodup ∧
      (∀ l, l ∈ locations ↔ Path.Matches nested.value [.descendant "b", .index "-1"] l) ∧
      (Path.select nested.value [.descendant "b", .index "-1"]).map some =
        locations.map nested.value.at? :=
  Path.select_eq_values_at_matches nested [.descendant "b", .index "-1"]

end Example

end JsonSelect
