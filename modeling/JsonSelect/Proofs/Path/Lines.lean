/-
# JsonSelect.Proofs.Path.Lines -- no segment reaches over the end of a line

* `Segment.scan?_append_newline`: whether a segment begins at some place, and which one,
  is decided before the end of the line.
* `Path.scan_append_newline`: so the segments of two texts with a newline between them are
  those of the first and then those of the second.
* `Path.compile_append_newline`: the matches of such an expression are the matches of the
  second path in each match of the first.
-/
import JsonSelect.Document
import JsonSelect.Proofs.Path.Scan
import JsonSelect.Proofs.Selection.Places

namespace JsonSelect

set_option autoImplicit false

namespace Segment

/-! ## One segment -/

theorem takeWhile_append_newline (s t : List Char) :
    (s ++ '\n' :: t).takeWhile isWordChar = s.takeWhile isWordChar := by
  induction s with
  | nil => rfl
  | cons c s ih =>
      by_cases word : isWordChar c = true
      · rw [List.cons_append, List.takeWhile_cons_of_pos word, List.takeWhile_cons_of_pos word, ih]
      · rw [List.cons_append, List.takeWhile_cons_of_neg word, List.takeWhile_cons_of_neg word]

theorem dropWhile_append_newline (s t : List Char) :
    (s ++ '\n' :: t).dropWhile isWordChar = s.dropWhile isWordChar ++ '\n' :: t := by
  induction s with
  | nil => rfl
  | cons c s ih =>
      by_cases word : isWordChar c = true
      · rw [List.cons_append, List.dropWhile_cons_of_pos word, List.dropWhile_cons_of_pos word, ih]
      · rw [List.cons_append, List.dropWhile_cons_of_neg word, List.dropWhile_cons_of_neg word,
          List.cons_append]

theorem word?_append_newline (s t : List Char) :
    word? (s ++ '\n' :: t) = (word? s).map fun (name, rest) => (name, rest ++ '\n' :: t) := by
  rw [word?, word?, takeWhile_append_newline, dropWhile_append_newline]
  cases s.takeWhile isWordChar <;> rfl

/-- The last bracket is looked for on the line. -/
theorem beforeLastBracket?_append_newline (s t : List Char) :
    beforeLastBracket? (s ++ '\n' :: t) =
      (beforeLastBracket? s).map fun (text, rest) => (text, rest ++ '\n' :: t) := by
  induction s with
  | nil => rfl
  | cons c s ih =>
      simp only [List.cons_append, beforeLastBracket?, ih]
      by_cases newline : c = '\n'
      · simp [newline]
      · cases beforeLastBracket? s with
        | some found => simp [newline]
        | none => by_cases closes : c = ']' <;> simp [newline, closes]

theorem descendant?_append_newline (s t : List Char) :
    descendant? (s ++ '\n' :: t) =
      (descendant? s).map fun (segment, rest) => (segment, rest ++ '\n' :: t) := by
  cases s with
  | nil => rfl
  | cons c s =>
      by_cases dot : c = '.'
      · subst dot
        cases s with
        | nil => rfl
        | cons d s =>
            by_cases dot : d = '.'
            · subst dot
              simp [descendant?, word?_append_newline, Function.comp_def]
            · simp [descendant?, dot]
      · simp [descendant?, dot]

theorem child?_append_newline (s t : List Char) :
    child? (s ++ '\n' :: t) =
      (child? s).map fun (segment, rest) => (segment, rest ++ '\n' :: t) := by
  cases s with
  | nil => rfl
  | cons c s =>
      by_cases dot : c = '.'
      · subst dot
        simp [child?, word?_append_newline, Function.comp_def]
      · simp [child?, dot]

theorem index?_append_newline (s t : List Char) :
    index? (s ++ '\n' :: t) =
      (index? s).map fun (segment, rest) => (segment, rest ++ '\n' :: t) := by
  cases s with
  | nil => rfl
  | cons c s =>
      by_cases opens : c = '['
      · subst opens
        simp only [List.cons_append, index?, beforeLastBracket?_append_newline]
        cases beforeLastBracket? s with
        | none => rfl
        | some found =>
            obtain ⟨text, rest⟩ := found
            cases text <;> rfl
      · simp [index?, opens]

/-- What begins at a place is decided by the rest of the line. -/
theorem scan?_append_newline (s t : List Char) :
    scan? (s ++ '\n' :: t) =
      (scan? s).map fun (segment, rest) => (segment, rest ++ '\n' :: t) := by
  rw [scan?, scan?, Option.map_or, Option.map_or, descendant?_append_newline,
    child?_append_newline, index?_append_newline]

end Segment

/-! ## Whole expressions -/

namespace Path

theorem scan_newline (t : List Char) : scan ('\n' :: t) = scan t :=
  scan_cons_of_none (Segment.scan?_append_newline [] t)

/-- The segments of two texts with a newline between them. -/
theorem scan_append_newline (s t : List Char) : scan (s ++ '\n' :: t) = scan s ++ scan t := by
  fun_induction scan s with
  | case1 => exact scan_newline t
  | case2 c s segment rest found shorter ih =>
      have found' : Segment.scan? (c :: s ++ '\n' :: t) = some (segment, rest ++ '\n' :: t) := by
        rw [Segment.scan?_append_newline, found]
        rfl
      rw [scan_of_some found', ih, List.cons_append]
  | case3 c s nothing ih =>
      have nothing' : Segment.scan? (c :: (s ++ '\n' :: t)) = none := by
        rw [← List.cons_append, Segment.scan?_append_newline, nothing]
        rfl
      rw [List.cons_append, scan_cons_of_none nothing', ih]

/-- The matches of two paths in a row are those of the second in each match of the first. -/
theorem select_append (root : Json) (first second : Path) :
    select root (first ++ second) = (select root first).flatMap (select · second) := by
  rw [select, List.foldl_append, foldl_select_eq_flatMap second]
  rfl

/-- **Expressions compose line by line.**  A newline between two expressions joins their
paths, and the second one is followed from each match of the first, in order. -/
theorem compile_append_newline (first second : String) :
    compile (first ++ "\n" ++ second) = compile first ++ compile second ∧
      ∀ doc : Document, doc.query (first ++ "\n" ++ second) =
        (doc.query first).flatMap fun v => (compile second).select v := by
  have joined : compile (first ++ "\n" ++ second) = compile first ++ compile second := by
    have newline : (first ++ "\n" ++ second).toList = first.toList ++ '\n' :: second.toList := by
      simp
    rw [compile, newline, scan_append_newline, compile, compile]
  refine ⟨joined, fun doc => ?_⟩
  rw [Document.query, Document.query, joined, Document.run, select_append]
  rfl

/-- A bracket that is left open on the first line is not closed on the second. -/
example : compile ".a[0\n1].b" = [.child "a", .child "b"] := by cbv

end Path

end JsonSelect
