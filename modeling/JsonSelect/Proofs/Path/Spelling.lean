/-
# JsonSelect.Proofs.Path.Spelling -- which paths can be spelled

A path is compiled from some expression if its segments are well-formed, and then there is one
expression to write it in: a line for each segment.  Brackets are closed on their line, so
whatever text stands between them, the segments on other lines are left as they are.

* `Path.scan_display`: the text of a single segment is scanned to this segment.
* `Path.exists_compile_eq_iff`: the paths that are compiled, and how they are spelled.
-/
import JsonSelect.Proofs.Path.Fusion
import JsonSelect.Proofs.Path.Lines

namespace JsonSelect

set_option autoImplicit false

namespace Path

/-- The segments with a newline behind each. -/
def spelling (path : Path) : List Char := path.flatMap fun segment => segment.display ++ ['\n']

/-- A single segment has at most one pair of brackets, so nothing can be fused. -/
theorem scan_display {segment : Segment} (wellFormed : segment.WellFormed) :
    scan segment.display = [segment] := by
  have single : Path.WellFormed [segment] := List.forall_mem_singleton.2 wellFormed
  have few : List.countP Segment.isIndex [segment] ≤ 1 := List.countP_le_length
  rcases scan_flatMap_display single with ⟨-, same⟩ | ⟨many, -⟩
  · rwa [List.flatMap_singleton] at same
  · omega

theorem scan_spelling {path : Path} (wellFormed : path.WellFormed) : scan path.spelling = path := by
  induction path with
  | nil => rw [spelling, List.flatMap_nil, scan]
  | cons segment path ih =>
      obtain ⟨first, others⟩ := List.forall_mem_cons.1 wellFormed
      have split : spelling (segment :: path) = segment.display ++ '\n' :: spelling path := by
        rw [spelling, List.flatMap_cons, List.append_assoc]
        rfl
      rw [split, scan_append_newline, scan_display first, ih others]
      rfl

/-- **Every well-formed path can be spelled, and no other.**  A path is the path of some
expression if and only if its names are nonempty runs of word characters and its texts between
brackets are not empty and have no newline in them; and then it is the path of the expression
that has its segments on lines of their own. -/
theorem exists_compile_eq_iff (path : Path) :
    ((∃ expression, compile expression = path) ↔ path.WellFormed) ∧
      (path.WellFormed ↔ compile (String.ofList path.spelling) = path) := by
  have compiled {expression : String} (same : compile expression = path) : path.WellFormed := by
    rw [← same]
    exact wellFormed_scan expression.toList
  have spelled (wellFormed : path.WellFormed) :
      compile (String.ofList path.spelling) = path := by
    rw [compile, String.toList_ofList, scan_spelling wellFormed]
  refine ⟨⟨fun found => ?_, fun wellFormed => ⟨_, spelled wellFormed⟩⟩, spelled, compiled⟩
  obtain ⟨expression, same⟩ := found
  exact compiled same

/-- Brackets inside a text do not reach over the line of their segment. -/
example : compile "[a]b[]\n.c\n[0]\n" = [.index "a]b[", .child "c", .index "0"] := by cbv

end Path

end JsonSelect
