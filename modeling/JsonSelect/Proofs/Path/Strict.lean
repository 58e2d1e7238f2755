/-
# JsonSelect.Proofs.Path.Strict -- what strict compilation refuses

* `Segment.display_append_of_scan?`: a scanned segment is written the way it was read.
* `length_flatMap_display_scan_le`: the segments of a text are never longer than it, since
  every other character of it is dropped.
* `scanStrict_eq_ok_iff`: a strict scan succeeds if the lenient one drops nothing, and
  finds the same segments.
* `compileStrict_eq_ok_iff`: so strict compilation accepts the expressions that come out
  of their lenient compilation again, but for the leading dollar sign.
-/
import JsonSelect.Except
import JsonSelect.Proofs.Path.Scan

namespace JsonSelect

set_option autoImplicit false

namespace Segment

/-! ## Segments are written as they are read -/

theorem toList_append_of_word? {s rest : List Char} {name : String}
    (found : word? s = some (name, rest)) : name.toList ++ rest = s := by
  unfold word? at found
  split at found
  · cases found
  · rename_i name word
    cases found
    rw [String.toList_ofList, ← word, List.takeWhile_append_dropWhile]

theorem append_of_beforeLastBracket? {s text rest : List Char}
    (found : beforeLastBracket? s = some (text, rest)) : text ++ ']' :: rest = s := by
  induction s generalizing text with
  | nil => cases found
  | cons c s ih =>
      simp only [beforeLastBracket?] at found
      split at found
      · cases found
      · split at found
        · rename_i inner
          cases found
          rw [List.cons_append, ih inner]
        · split at found
          · rename_i closes
            cases found
            rw [closes, List.nil_append]
          · cases found

/-- The text of a scanned segment is what the scan took. -/
theorem display_append_of_scan? {s rest : List Char} {segment : Segment}
    (found : scan? s = some (segment, rest)) : segment.display ++ rest = s := by
  rcases scan?_cases found with
    ⟨name, t, rfl, rfl, word⟩ | ⟨name, t, rfl, rfl, word⟩ | ⟨c, text, t, rfl, rfl, inner⟩
  · rw [display, List.cons_append, List.cons_append, toList_append_of_word? word]
  · rw [display, List.cons_append, toList_append_of_word? word]
  · rw [← append_of_beforeLastBracket? inner, display, String.toList_ofList]
    simp

/-- No segment begins with a dollar sign. -/
theorem scan?_dollar (s : List Char) : scan? ('$' :: s) = none := by
  simp [scan?, descendant?, child?, index?]

end Segment

namespace Path

/-! ## Scans that drop nothing -/

theorem scanStrict_nil : scanStrict [] = .ok [] := by rw [scanStrict]

theorem scanStrict_cons_of_none {c : Char} {s : List Char}
    (nothing : Segment.scan? (c :: s) = none) : scanStrict (c :: s) = .error (c, s) := by
  rw [scanStrict]
  split
  · rename_i found
    rw [nothing] at found
    cases found
  · rfl

theorem scanStrict_of_some {s rest : List Char} {segment : Segment}
    (found : Segment.scan? s = some (segment, rest)) :
    scanStrict s = (scanStrict rest).map (segment :: ·) := by
  cases s with
  | nil => cases found
  | cons c s =>
      rw [scanStrict]
      split
      · rename_i found'
        rw [found] at found'
        cases found'
        rfl
      · rename_i nothing
        rw [found] at nothing
        cases nothing

theorem length_flatMap_display_scan_le (s : List Char) :
    ((scan s).flatMap Segment.display).length ≤ s.length := by
  fun_induction scan s with
  | case1 => exact Nat.le_refl 0
  | case2 c s segment rest found shorter ih =>
      rw [← Segment.display_append_of_scan? found, List.flatMap_cons, List.length_append,
        List.length_append]
      omega
  | case3 c s nothing ih => exact Nat.le_succ_of_le ih

/-- A dropped character is missing from the text of the segments. -/
theorem flatMap_display_scan_ne {s : List Char} (c : Char) :
    (scan s).flatMap Segment.display ≠ c :: s := by
  intro whole
  have short := length_flatMap_display_scan_le s
  rw [whole, List.length_cons] at short
  omega

theorem scanStrict_eq_ok_iff {s : List Char} {path : Path} :
    scanStrict s = .ok path ↔ path = scan s ∧ (scan s).flatMap Segment.display = s := by
  fun_induction scan s generalizing path with
  | case1 =>
      rw [scanStrict_nil, Except.ok.injEq]
      exact ⟨fun empty => ⟨empty.symm, rfl⟩, fun h => h.1.symm⟩
  | case2 c s segment rest found shorter ih =>
      rw [scanStrict_of_some found, List.flatMap_cons]
      have text := Segment.display_append_of_scan? found
      constructor
      · intro success
        cases inner : scanStrict rest with
        | error e =>
            rw [inner] at success
            cases success
        | ok others =>
            rw [inner] at success
            cases success
            obtain ⟨same, whole⟩ := ih.1 inner
            exact ⟨by rw [same], by rw [whole, text]⟩
      · rintro ⟨rfl, whole⟩
        rw [← text] at whole
        rw [ih.2 ⟨rfl, List.append_cancel_left whole⟩]
        rfl
  | case3 c s nothing ih =>
      rw [scanStrict_cons_of_none nothing]
      constructor
      · intro success
        cases success
      · rintro ⟨-, whole⟩
        exact absurd whole (flatMap_display_scan_ne c)

/-! ## Whole expressions -/

theorem afterDollar_of_ne {s : List Char} (noDollar : ∀ t, s ≠ '$' :: t) : afterDollar s = s := by
  unfold afterDollar
  split
  · exact absurd rfl (noDollar _)
  · rfl

theorem scan_afterDollar (s : List Char) : scan (afterDollar s) = scan s := by
  unfold afterDollar
  split
  · rw [scan_cons_of_none (Segment.scan?_dollar _)]
  · rfl

/-- Where strict compilation succeeds, it finds what the lenient one finds. -/
theorem eq_compile_of_compileStrict {expression : String} {path : Path}
    (accepted : compileStrict expression = .ok path) : path = compile expression := by
  rw [compileStrict, mapError_eq_ok_iff, scanStrict_eq_ok_iff] at accepted
  rw [accepted.1, scan_afterDollar, compile]

/-- **Strict compilation refuses what the lenient one drops.**  It succeeds exactly on the
expressions that are the text of their lenient compilation, with or without the dollar
sign in front, and its result is the lenient one. -/
theorem compileStrict_eq_ok_iff (expression : String) (path : Path) :
    compileStrict expression = .ok path ↔
      path = compile expression ∧
        ((compile expression).display = expression.toList ∨
          (compile expression).display = '$' :: expression.toList) := by
  rw [compileStrict, mapError_eq_ok_iff, compile]
  generalize expression.toList = s
  by_cases dollar : ∃ t, s = '$' :: t
  · obtain ⟨t, rfl⟩ := dollar
    rw [show afterDollar ('$' :: t) = t from rfl, scan_cons_of_none (Segment.scan?_dollar t),
      scanStrict_eq_ok_iff, display]
    simp [flatMap_display_scan_ne]
  · have noDollar : ∀ t, s ≠ '$' :: t := fun t same => dollar ⟨t, same⟩
    rw [afterDollar_of_ne noDollar, scanStrict_eq_ok_iff, display]
    simp [(noDollar _).symm]

/-- A second dollar sign is refused like any other character outside the segments. -/
example : compileStrict "$$.a" = .error ⟨1, '$'⟩ ∧ compile "$$.a" = [.child "a"] := by cbv

end Path

end JsonSelect
