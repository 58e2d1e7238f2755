/-
# JsonSelect.Proofs.Path.Fusion -- reading the text of a path again

The text of a path is one line, and on a line the first opening bracket goes with the last
closing one.  So the text spells the same path if there are brackets in one segment at
most; otherwise all that stands between the first segment with brackets and the last one
becomes a single text between brackets.

* `Path.scan_flatMap_display`: the two ways in which the text of a path is read.
* `Path.countP_isIndex_scan_le_one`: a single line gives no second segment with brackets.
* `Path.compileStrict_display`: for every expression, the text of its path is accepted,
  has the text that it is, and spells the path or its fusion.
-/
import JsonSelect.Proofs.Path.WellFormed

namespace JsonSelect

set_option autoImplicit false

namespace Path

/-- Of the first path, the segments from the first with brackets to the last one are a
single segment of the second path, with the text that stands between the outer brackets. -/
inductive Fuses : Path → Path → Prop
  | intro {before middle after : Path} {first last text : String}
      (namedBefore : before.countP Segment.isIndex = 0)
      (namedAfter : after.countP Segment.isIndex = 0)
      (between : (before ++ .index first :: (middle ++ .index last :: after)).display =
        before.display ++ '[' :: (text.toList ++ ']' :: after.flatMap Segment.display)) :
      Fuses (before ++ .index first :: (middle ++ .index last :: after))
        (before ++ .index text :: after)

/-! ## Segments with brackets -/

theorem display_eq (path : Path) : path.display = '$' :: path.flatMap Segment.display := rfl

theorem countP_isIndex_append_index (before after : Path) (text : String) :
    (before ++ .index text :: after).countP Segment.isIndex =
      before.countP Segment.isIndex + after.countP Segment.isIndex + 1 := by
  rw [List.countP_append, List.countP_cons_of_pos rfl, Nat.add_assoc]

theorem exists_first_index {path : Path} (bracketed : path.countP Segment.isIndex ≠ 0) :
    ∃ before text after, path = before ++ .index text :: after ∧
      before.countP Segment.isIndex = 0 := by
  induction path with
  | nil => exact absurd rfl bracketed
  | cons segment path ih =>
      by_cases here : segment.isIndex = true
      · cases segment with
        | index text => exact ⟨[], text, path, rfl, rfl⟩
        | _ => cases here
      · rw [List.countP_cons_of_neg here] at bracketed
        obtain ⟨before, text, after, rfl, named⟩ := ih bracketed
        exact ⟨segment :: before, text, after, rfl, by rw [List.countP_cons_of_neg here, named]⟩

theorem exists_last_index {path : Path} (bracketed : path.countP Segment.isIndex ≠ 0) :
    ∃ before text after, path = before ++ .index text :: after ∧
      after.countP Segment.isIndex = 0 := by
  have bracketed : path.reverse.countP Segment.isIndex ≠ 0 := by rwa [List.countP_reverse]
  obtain ⟨after, text, before, reversed, named⟩ := exists_first_index bracketed
  refine ⟨before.reverse, text, after.reverse, ?_, by rwa [List.countP_reverse]⟩
  rw [← List.reverse_reverse path, reversed]
  simp

theorem Fuses.display_eq {path fused : Path} (fuses : path.Fuses fused) :
    fused.display = path.display := by
  obtain ⟨-, -, between⟩ := fuses
  rw [between]
  simp [Path.display, Segment.display]

theorem Fuses.ne {path fused : Path} (fuses : path.Fuses fused) : fused ≠ path := by
  obtain ⟨namedBefore, namedAfter, -⟩ := fuses
  intro same
  have counts := congrArg (List.countP Segment.isIndex) same
  rw [countP_isIndex_append_index, countP_isIndex_append_index,
    countP_isIndex_append_index] at counts
  omega

/-! ## Reading a line -/

/-- Between names, an opening bracket goes with the last closing one. -/
theorem scan_bracketed {before after : Path} (text : List Char)
    (wellFormedBefore : before.WellFormed) (wellFormedAfter : after.WellFormed)
    (namedBefore : before.countP Segment.isIndex = 0)
    (namedAfter : after.countP Segment.isIndex = 0)
    (nonempty : text ≠ []) (oneLine : '\n' ∉ text) :
    scan (before.flatMap Segment.display ++ '[' :: (text ++ ']' :: after.flatMap Segment.display)) =
      before ++ .index (String.ofList text) :: after := by
  have last : Segment.beforeLastBracket? (after.flatMap Segment.display) = none :=
    (Segment.beforeLastBracket?_eq_none_iff (newline_not_mem_display wellFormedAfter)).2
      (bracket_not_mem_display wellFormedAfter namedAfter)
  rw [scan_display_append wellFormedBefore namedBefore (Segment.noWord_cons (by decide)),
    scan_of_some (Segment.scan?_bracketed nonempty oneLine last),
    scan_display_of_named wellFormedAfter namedAfter]

/-- The text of a path without its dollar sign spells the path or its fusion. -/
theorem scan_flatMap_display {path : Path} (wellFormed : path.WellFormed) :
    (path.countP Segment.isIndex ≤ 1 ∧ scan (path.flatMap Segment.display) = path) ∨
      (1 < path.countP Segment.isIndex ∧ path.Fuses (scan (path.flatMap Segment.display))) := by
  by_cases bracketed : path.countP Segment.isIndex = 0
  · exact .inl ⟨by omega, scan_display_of_named wellFormed bracketed⟩
  obtain ⟨before, first, rest, rfl, namedBefore⟩ := exists_first_index bracketed
  obtain ⟨wellFormedBefore, wellFormedRest⟩ := List.forall_mem_append.1 wellFormed
  obtain ⟨wellFormedFirst, wellFormedRest⟩ := List.forall_mem_cons.1 wellFormedRest
  by_cases single : rest.countP Segment.isIndex = 0
  · refine .inl ⟨by rw [countP_isIndex_append_index]; omega, ?_⟩
    have read := scan_bracketed first.toList wellFormedBefore wellFormedRest namedBefore single
      (by simpa using wellFormedFirst.1) wellFormedFirst.2
    simpa [Segment.display, List.flatMap_append] using read
  · obtain ⟨middle, last, after, rfl, namedAfter⟩ := exists_last_index single
    obtain ⟨wellFormedMiddle, wellFormedAfter⟩ := List.forall_mem_append.1 wellFormedRest
    obtain ⟨wellFormedLast, wellFormedAfter⟩ := List.forall_mem_cons.1 wellFormedAfter
    refine .inr ⟨by rw [countP_isIndex_append_index]; omega, ?_⟩
    -- what stands between the outer brackets, with the inner ones
    let text := first.toList ++ ']' :: (middle.flatMap Segment.display ++ '[' :: last.toList)
    have oneLine : '\n' ∉ text := by
      have outside := newline_not_mem_display wellFormedMiddle
      simp only [text, List.mem_append, List.mem_cons, not_or]
      exact ⟨wellFormedFirst.2, by decide, outside, by decide, wellFormedLast.2⟩
    have read := scan_bracketed text wellFormedBefore wellFormedAfter namedBefore namedAfter
      (by simp [text]) oneLine
    have whole : (before ++ .index first :: (middle ++ .index last :: after)).flatMap
        Segment.display = before.flatMap Segment.display ++
          '[' :: (text ++ ']' :: after.flatMap Segment.display) := by
      simp [text, Segment.display, List.flatMap_append]
    rw [whole, read]
    exact .intro namedBefore namedAfter (by rw [display_eq, whole, String.toList_ofList]; rfl)

/-! ## Brackets on one line -/

theorem countP_isIndex_scan_of_unclosed {s : List Char} (unclosed : ']' ∉ s) :
    (scan s).countP Segment.isIndex = 0 := by
  fun_induction scan s with
  | case1 => rfl
  | case2 c s segment rest found shorter ih =>
      rw [← Segment.display_append_of_scan? found, List.mem_append, not_or] at unclosed
      have named : ¬ segment.isIndex = true :=
        fun bracketed => unclosed.1 (Segment.bracket_mem_display bracketed)
      rw [List.countP_cons_of_neg named, ih unclosed.2]
  | case3 c s nothing ih => exact ih fun inside => unclosed (List.mem_cons_of_mem _ inside)

/-- Behind the last bracket of a line there is no other one. -/
theorem countP_isIndex_scan_le_one {s : List Char} (oneLine : '\n' ∉ s) :
    (scan s).countP Segment.isIndex ≤ 1 := by
  fun_induction scan s with
  | case1 => exact Nat.zero_le _
  | case2 c s segment rest found shorter ih =>
      have lineRest : '\n' ∉ rest := fun inside => oneLine <| by
        rw [← Segment.display_append_of_scan? found]
        exact List.mem_append_right _ inside
      rcases Segment.scan?_cases found with
        ⟨name, t, -, rfl, -⟩ | ⟨name, t, -, rfl, -⟩ | ⟨d, text, t, -, rfl, inner⟩
      · exact ih lineRest
      · exact ih lineRest
      · have unclosed := (Segment.beforeLastBracket?_eq_none_iff lineRest).1
          (Segment.beforeLastBracket?_rest inner)
        have others := countP_isIndex_scan_of_unclosed unclosed
        rw [List.countP_cons_of_pos rfl]
        omega
  | case3 c s nothing ih => exact ih fun inside => oneLine (List.mem_cons_of_mem _ inside)

/-! ## Whole expressions -/

theorem compile_ofList_dollar (s : List Char) : compile (String.ofList ('$' :: s)) = scan s := by
  rw [compile, String.toList_ofList, scan_cons_of_none (Segment.scan?_dollar s)]

theorem compileStrict_ofList_dollar {s : List Char} (whole : (scan s).flatMap Segment.display = s) :
    compileStrict (String.ofList ('$' :: s)) = .ok (scan s) := by
  rw [compileStrict, mapError_eq_ok_iff, String.toList_ofList]
  exact scanStrict_eq_ok_iff.2 ⟨rfl, whole⟩

/-- **The text of a path can be read again.**  It is accepted strictly and stays the same
from then on.  The path stays the same exactly if there are brackets in one segment at
most, as is always so for an expression on one line, and is fused otherwise. -/
theorem compileStrict_display (expression : String) :
    ∃ path, compileStrict (String.ofList (compile expression).display) = .ok path ∧
      path.display = (compile expression).display ∧
      (path = compile expression ↔ (compile expression).countP Segment.isIndex ≤ 1) ∧
      (1 < (compile expression).countP Segment.isIndex → (compile expression).Fuses path) ∧
      ('\n' ∉ expression.toList → (compile expression).countP Segment.isIndex ≤ 1) ∧
      (compile (String.ofList (compile expression).display)).display =
        (compile expression).display := by
  have wellFormed : (compile expression).WellFormed := wellFormed_scan expression.toList
  have line : '\n' ∉ expression.toList → (compile expression).countP Segment.isIndex ≤ 1 :=
    countP_isIndex_scan_le_one
  generalize compile expression = path at wellFormed line
  have text : (scan (path.flatMap Segment.display)).display = path.display := by
    rcases scan_flatMap_display wellFormed with ⟨-, same⟩ | ⟨-, fuses⟩
    · rw [same]
    · exact fuses.display_eq
  have whole := (List.cons.inj text).2
  rw [display_eq path, compile_ofList_dollar]
  refine ⟨_, compileStrict_ofList_dollar whole, text, ?_, ?_, line, text⟩
  · rcases scan_flatMap_display wellFormed with ⟨few, same⟩ | ⟨many, fuses⟩
    · exact ⟨fun _ => few, fun _ => same⟩
    · exact ⟨fun same => absurd same fuses.ne, fun few => by omega⟩
  · intro many
    rcases scan_flatMap_display wellFormed with ⟨few, -⟩ | ⟨-, fuses⟩
    · omega
    · exact fuses

end Path

namespace Example

/-- Without the newline the brackets of two lines are a single pair. -/
theorem fused_from_two_lines :
    1 < (Path.compile "[0]\n.b[1]").countP Segment.isIndex ∧
      (∃ path, Path.compileStrict (String.ofList (Path.compile "[0]\n.b[1]").display) = .ok path ∧
        (Path.compile "[0]\n.b[1]").Fuses path) ∧
      '\n' ∉ ".b[1]".toList ∧ (Path.compile ".b[1]").countP Segment.isIndex ≤ 1 := by
  have twoLines : Path.compile "[0]\n.b[1]" = [.index "0", .child "b", .index "1"] := by
    decide +kernel
  have many : 1 < (Path.compile "[0]\n.b[1]").countP Segment.isIndex := by
    rw [twoLines]
    decide
  have oneLine : '\n' ∉ ".b[1]".toList := by decide
  obtain ⟨path, accepted, -, -, fuses, -, -⟩ := Path.compileStrict_display "[0]\n.b[1]"
  obtain ⟨-, -, -, -, -, few, -⟩ := Path.compileStrict_display ".b[1]"
  exact ⟨many, ⟨path, accepted, fuses many⟩, oneLine, few oneLine⟩

end Example

end JsonSelect
