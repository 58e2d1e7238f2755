/-
# JsonSelect.Proofs.Selection.Coverage -- what a search for a name leaves out

The search stops at an object that holds the name and looks neither beside nor below the
member, so an object further down that holds the name, too, gives no match of its own.

* `Json.FirstHolder` holds of the location of an object with the name, if no object around
  it has the name; every object with the name is inside such a first one
  (`HoldsAt.exists_firstHolder`), and inside one only (`FirstHolder.unique`).
* `Json.mem_holders_iff`: the matches come from the first holders.
* `Json.search_covers`: so exactly one match stands for each object that has the name, and
  there is no match only if there is no such object.
-/
import JsonSelect.Proofs.Selection.Matching
import Mathlib.Data.List.Nodup

namespace JsonSelect

set_option autoImplicit false

namespace Json

variable {name : String} {v : Json}

/-- An object that has a member with this name stands at the location. -/
def HoldsAt (name : String) (v : Json) (l : Location) : Prop :=
  ∃ holder, v.at? l = some holder ∧ holder.Holds name

/-- The object at the location holds the name, and none around it does. -/
structure FirstHolder (name : String) (v : Json) (l : Location) : Prop where
  holds : v.HoldsAt name l
  first : ∀ above, above <+: l → v.HoldsAt name above → above = l

/-! ## First holders -/

theorem holdsAt_nil_iff : v.HoldsAt name [] ↔ v.Holds name := by
  simp [HoldsAt]

theorem holdsAt_cons_iff {hop : Hop} {l : Location} :
    v.HoldsAt name (hop :: l) ↔ ∃ w, v.down? hop = some w ∧ w.HoldsAt name l := by
  constructor
  · rintro ⟨holder, here, holds⟩
    obtain ⟨w, down, there⟩ := at?_eq_some_cons_iff.1 here
    exact ⟨w, down, holder, there, holds⟩
  · rintro ⟨w, down, holder, there, holds⟩
    exact ⟨holder, at?_eq_some_cons_iff.2 ⟨w, down, there⟩, holds⟩

theorem firstHolder_nil (holds : v.Holds name) : FirstHolder name v [] := by
  refine ⟨holdsAt_nil_iff.2 holds, ?_⟩
  intro above inside _
  exact List.prefix_nil.1 inside

/-- Below a value without the name, the first holders are those of its children. -/
theorem FirstHolder.below {w : Json} {hop : Hop} {l : Location} (first : FirstHolder name w l)
    (down : v.down? hop = some w) (holdsNot : ¬ v.Holds name) :
    FirstHolder name v (hop :: l) := by
  refine ⟨holdsAt_cons_iff.2 ⟨w, down, first.holds⟩, ?_⟩
  intro above inside holds
  cases above with
  | nil => exact absurd (holdsAt_nil_iff.1 holds) holdsNot
  | cons hop' above =>
      obtain ⟨rfl, deeper⟩ := List.cons_prefix_cons.1 inside
      obtain ⟨w', down', holds⟩ := holdsAt_cons_iff.1 holds
      cases down.symm.trans down'
      rw [first.first above deeper holds]

/-- Whoever goes down to a holder meets a first one on the way. -/
theorem HoldsAt.exists_firstHolder {l : Location} (holds : v.HoldsAt name l) :
    ∃ above, above <+: l ∧ FirstHolder name v above := by
  induction l generalizing v with
  | nil => exact ⟨[], List.prefix_rfl, firstHolder_nil (holdsAt_nil_iff.1 holds)⟩
  | cons hop l ih =>
      by_cases here : v.Holds name
      · exact ⟨[], List.nil_prefix, firstHolder_nil here⟩
      · obtain ⟨w, down, holds⟩ := holdsAt_cons_iff.1 holds
        obtain ⟨above, inside, first⟩ := ih holds
        refine ⟨hop :: above, ?_, first.below down here⟩
        simpa using inside

/-- No two first holders are on one way down. -/
theorem FirstHolder.unique {a b l : Location} (first : FirstHolder name v a)
    (second : FirstHolder name v b) (aboveFirst : a <+: l) (aboveSecond : b <+: l) : a = b := by
  rcases List.prefix_or_prefix_of_prefix aboveFirst aboveSecond with inside | inside
  · exact second.first a inside first.holds
  · exact (first.first b inside second.holds).symm

/-! ## The objects that matches come from -/

/-- The locations of the objects from which the search takes its matches. -/
def holders (name : String) (v : Json) : List Location :=
  (v.searchPlaces name).map fun p => p.location.dropLast

theorem matches_descendant_iff_firstHolder {l : Location} :
    (Segment.descendant name).Matches v l ↔
      ∃ route, FirstHolder name v route ∧ l = route ++ [.key name] := by
  constructor
  · intro leads
    cases leads with
    | @descendant _ route holder here holds first =>
        refine ⟨route, ⟨⟨holder, here, holds⟩, ?_⟩, rfl⟩
        rintro above inside ⟨passed, found, holdsAbove⟩
        apply Classical.byContradiction
        intro strictly
        exact first above passed inside strictly found holdsAbove
  · rintro ⟨route, first, rfl⟩
    obtain ⟨holder, here, holds⟩ := first.holds
    refine .descendant here holds ?_
    intro above passed inside strictly found holdsAbove
    exact strictly (first.first above inside ⟨passed, found, holdsAbove⟩)

theorem location_of_mem_searchPlaces (ordered : v.Ordered) {p : Place}
    (found : p ∈ v.searchPlaces name) :
    FirstHolder name v p.location.dropLast ∧ p.location.dropLast ++ [.key name] = p.location := by
  have leads := ((mem_searchPlaces_iff ordered).1 found).1
  obtain ⟨route, first, same⟩ := matches_descendant_iff_firstHolder.1 leads
  rw [same, List.dropLast_concat]
  exact ⟨first, rfl⟩

/-- The matches come from the first holders. -/
theorem mem_holders_iff (ordered : v.Ordered) {l : Location} :
    l ∈ v.holders name ↔ FirstHolder name v l := by
  simp only [holders, List.mem_map]
  constructor
  · rintro ⟨p, found, rfl⟩
    exact (location_of_mem_searchPlaces ordered found).1
  · intro first
    have leads : (Segment.descendant name).Matches v (l ++ [.key name]) :=
      matches_descendant_iff_firstHolder.2 ⟨l, first, rfl⟩
    obtain ⟨w, here⟩ := leads.exists_at?
    refine ⟨⟨l ++ [.key name], w⟩, (mem_searchPlaces_iff ordered).2 ⟨leads, here⟩, ?_⟩
    exact List.dropLast_concat

/-- No object is reported twice. -/
theorem nodup_holders (ordered : v.Ordered) : (v.holders name).Nodup := by
  have sorted := leftToRight_searchPlaces name ordered
  rw [holders, List.Nodup, List.pairwise_map]
  apply sorted.imp_of_mem
  intro p q inFirst inSecond parted same
  have first := (location_of_mem_searchPlaces ordered inFirst).2
  have second := (location_of_mem_searchPlaces ordered inSecond).2
  rw [same, second] at first
  exact parted.ne first.symm

theorem map_search_eq (ordered : v.Ordered) :
    (v.search name).map some = (v.holders name).map fun l => v.at? (l ++ [.key name]) := by
  rw [← map_value_searchPlaces, holders, List.map_map, List.map_map]
  apply List.map_congr_left
  intro p found
  have whole := (location_of_mem_searchPlaces ordered found).2
  have here := at?_of_mem_searchPlaces ordered found
  simp only [Function.comp_apply]
  rw [whole, here]

/-- On the way to a holder there is one object from which a match comes. -/
theorem countP_holders_eq_one (ordered : v.Ordered) {l : Location} (holds : v.HoldsAt name l) :
    (v.holders name).countP (fun above => above.isPrefixOf l) = 1 := by
  obtain ⟨above, inside, first⟩ := holds.exists_firstHolder
  have only : ∀ h ∈ v.holders name, h.isPrefixOf l = true ↔ (h == above) = true := by
    intro h member
    rw [List.isPrefixOf_iff_prefix, beq_iff_eq]
    constructor
    · intro insideToo
      exact ((mem_holders_iff ordered).1 member).unique first insideToo inside
    · rintro rfl
      exact inside
  rw [List.countP_congr only]
  have member := (mem_holders_iff ordered).2 first
  exact List.nodup_iff_count_eq_one.1 (nodup_holders ordered) above member

/-- **The search leaves no holder without a match.**  Its matches are members of objects that
hold the name; wherever an object holds the name, exactly one of these objects is that object
or is around it; and so the search finds nothing only where no object holds the name. -/
theorem search_covers (root : OrderedJson) (name : String) :
    (root.value.search name).map some =
        ((root.value.holders name).map fun l => root.value.at? (l ++ [.key name])) ∧
      (∀ l ∈ root.value.holders name, root.value.HoldsAt name l) ∧
      (∀ l, root.value.HoldsAt name l →
        (root.value.holders name).countP (fun above => above.isPrefixOf l) = 1) ∧
      (root.value.search name = [] ↔ ∀ l, ¬ root.value.HoldsAt name l) := by
  obtain ⟨v, ordered⟩ := root
  have values : (v.search name).map some =
      (v.holders name).map fun l => v.at? (l ++ [.key name]) := map_search_eq ordered
  have holding : ∀ l ∈ v.holders name, v.HoldsAt name l :=
    fun l member => ((mem_holders_iff ordered).1 member).holds
  have covered : ∀ l, v.HoldsAt name l →
      (v.holders name).countP (fun above => above.isPrefixOf l) = 1 :=
    fun l holds => countP_holders_eq_one ordered holds
  refine ⟨values, holding, covered, ?_, ?_⟩
  · intro nothing l holds
    rw [nothing, List.map_nil, eq_comm, List.map_eq_nil_iff] at values
    have one := covered l holds
    rw [values] at one
    cases one
  · intro nowhere
    have none : v.holders name = [] := by
      rw [List.eq_nil_iff_forall_not_mem]
      intro l member
      exact nowhere l (holding l member)
    rwa [none, List.map_nil, List.map_eq_nil_iff] at values

end Json

namespace Example

/-- The name is held again below a match and beside one, and only the first holders count. -/
theorem covered_in_nested :
    nested.value.HoldsAt "b" [.key "a", .position 1, .key "b", .position 1] ∧
      (nested.value.holders "b").countP
        (fun above => above.isPrefixOf [.key "a", .position 1, .key "b", .position 1]) = 1 := by
  have holds : nested.value.HoldsAt "b" [.key "a", .position 1, .key "b", .position 1] :=
    ⟨.object [("b", .null)], rfl, .null, rfl⟩
  obtain ⟨-, -, covered, -⟩ := Json.search_covers nested "b"
  exact ⟨holds, covered _ holds⟩

end Example

end JsonSelect
