/-
# JsonSelect.Proofs.Path.WellFormed -- segments that can be read

A name is a nonempty run of word characters; a text between brackets is not empty and
stands on one line.

* `Path.wellFormed_scan`: the segments that a scan finds are of this form.
* `Segment.scan?_display_append`: a segment with a name is read back from its text where
  the name cannot go on.
* `Segment.scan?_bracketed`: a text between brackets is read back whole where no bracket
  is closed behind it on its line.
-/
import JsonSelect.Proofs.Path.Strict

namespace JsonSelect

set_option autoImplicit false

namespace Segment

def isIndex : Segment → Bool
  | .index _ => true
  | _ => false

def IsName (name : String) : Prop := name ≠ "" ∧ ∀ c ∈ name.toList, isWordChar c = true

/-- The form of the segments that are read. -/
def WellFormed : Segment → Prop
  | .child name => IsName name
  | .descendant name => IsName name
  | .index text => text ≠ "" ∧ '\n' ∉ text.toList

theorem IsName.not_mem {name : String} {c : Char} (isName : IsName name)
    (other : isWordChar c = false) : c ∉ name.toList := by
  intro inside
  have word := isName.2 c inside
  rw [other] at word
  cases word

/-! ## What is read is well-formed -/

theorem isName_of_word? {s rest : List Char} {name : String}
    (found : word? s = some (name, rest)) : IsName name := by
  unfold word? at found
  split at found
  · cases found
  · rename_i c name word
    cases found
    refine ⟨by simp, fun d inside => ?_⟩
    rw [String.toList_ofList, ← word] at inside
    exact List.all_eq_true.1 List.all_takeWhile d inside

theorem newline_not_mem_of_beforeLastBracket? {s text rest : List Char}
    (found : beforeLastBracket? s = some (text, rest)) : '\n' ∉ text := by
  induction s generalizing text with
  | nil => cases found
  | cons c s ih =>
      simp only [beforeLastBracket?] at found
      split at found
      · cases found
      · rename_i inLine
        split at found
        · rename_i inner
          cases found
          simp [Ne.symm inLine, ih inner]
        · split at found <;> cases found
          exact List.not_mem_nil

theorem wellFormed_of_scan? {s rest : List Char} {segment : Segment}
    (found : scan? s = some (segment, rest)) : segment.WellFormed := by
  rcases scan?_cases found with
    ⟨name, t, -, rfl, word⟩ | ⟨name, t, -, rfl, word⟩ | ⟨c, text, t, -, rfl, inner⟩
  · exact isName_of_word? word
  · exact isName_of_word? word
  · have oneLine := newline_not_mem_of_beforeLastBracket? inner
    exact ⟨by simp, by rwa [String.toList_ofList]⟩

/-! ## Reading a name back -/

/-- No word goes on here. -/
def NoWord (rest : List Char) : Prop := rest.takeWhile isWordChar = []

theorem noWord_cons {c : Char} {s : List Char} (other : isWordChar c = false) : NoWord (c :: s) :=
  List.takeWhile_cons_of_neg (by simp [other])

theorem word?_append {name : String} {rest : List Char} (isName : IsName name)
    (ends : NoWord rest) : word? (name.toList ++ rest) = some (name, rest) := by
  have left : rest.dropWhile isWordChar = rest := by
    have := List.takeWhile_append_dropWhile (p := isWordChar) (l := rest)
    rwa [ends, List.nil_append] at this
  rw [word?, List.takeWhile_append_of_pos isName.2, List.dropWhile_append_of_pos isName.2, ends,
    left, List.append_nil]
  cases chars : name.toList with
  | nil => exact absurd (String.toList_eq_nil_iff.1 chars) isName.1
  | cons c s =>
      show some (String.ofList (c :: s), rest) = some (name, rest)
      rw [← chars, String.ofList_toList]

/-- A name does not begin with a dot, so one dot in front of it is not taken for two. -/
theorem descendant?_child {name : String} {rest : List Char} (isName : IsName name) :
    descendant? ('.' :: (name.toList ++ rest)) = none := by
  cases chars : name.toList with
  | nil => exact absurd (String.toList_eq_nil_iff.1 chars) isName.1
  | cons c s =>
      have noDot : '.' ∉ name.toList := isName.not_mem (by decide)
      have notDot : c ≠ '.' := by
        rintro rfl
        simp [chars] at noDot
      simp [descendant?, notDot]

/-- A segment with a name is read back where the name ends. -/
theorem scan?_display_append {segment : Segment} {rest : List Char}
    (wellFormed : segment.WellFormed) (named : segment.isIndex = false) (ends : NoWord rest) :
    scan? (segment.display ++ rest) = some (segment, rest) := by
  cases segment with
  | child name =>
      have isName : IsName name := wellFormed
      rw [display, List.cons_append, scan?, descendant?_child isName, child?,
        word?_append isName ends]
      rfl
  | descendant name =>
      have isName : IsName name := wellFormed
      rw [display, List.cons_append, List.cons_append, scan?, descendant?,
        word?_append isName ends]
      rfl
  | index text => cases named

/-! ## Reading a text between brackets back -/

/-- A bracket behind which none is closed on the line is the last one. -/
theorem beforeLastBracket?_append {text rest : List Char} (oneLine : '\n' ∉ text)
    (last : beforeLastBracket? rest = none) :
    beforeLastBracket? (text ++ ']' :: rest) = some (text, rest) := by
  induction text with
  | nil => simp [beforeLastBracket?, last]
  | cons c text ih =>
      rw [List.mem_cons, not_or] at oneLine
      rw [List.cons_append, beforeLastBracket?, if_neg (Ne.symm oneLine.1), ih oneLine.2]

theorem beforeLastBracket?_rest {s text rest : List Char}
    (found : beforeLastBracket? s = some (text, rest)) : beforeLastBracket? rest = none := by
  induction s generalizing text with
  | nil => cases found
  | cons c s ih =>
      simp only [beforeLastBracket?] at found
      split at found
      · cases found
      · split at found
        · rename_i inner
          cases found
          exact ih inner
        · rename_i nothing
          split at found <;> cases found
          exact nothing

theorem bracket_mem_of_beforeLastBracket? {s text rest : List Char}
    (found : beforeLastBracket? s = some (text, rest)) : ']' ∈ s := by
  rw [← append_of_beforeLastBracket? found]
  simp

/-- On one line any closing bracket makes a last one. -/
theorem beforeLastBracket?_eq_none_iff {s : List Char} (oneLine : '\n' ∉ s) :
    beforeLastBracket? s = none ↔ ']' ∉ s := by
  constructor
  · intro nothing
    induction s with
    | nil => exact List.not_mem_nil
    | cons c s ih =>
        rw [List.mem_cons, not_or] at oneLine ⊢
        rw [beforeLastBracket?, if_neg (Ne.symm oneLine.1)] at nothing
        cases inner : beforeLastBracket? s with
        | some found =>
            rw [inner] at nothing
            cases nothing
        | none =>
            rw [inner] at nothing
            refine ⟨?_, ih oneLine.2 inner⟩
            rintro rfl
            cases nothing
  · intro unclosed
    cases found : beforeLastBracket? s with
    | none => rfl
    | some way => exact absurd (bracket_mem_of_beforeLastBracket? found) unclosed

theorem scan?_bracketed {text rest : List Char} (nonempty : text ≠ []) (oneLine : '\n' ∉ text)
    (last : beforeLastBracket? rest = none) :
    scan? ('[' :: (text ++ ']' :: rest)) = some (.index (String.ofList text), rest) := by
  have found := beforeLastBracket?_append oneLine last
  cases text with
  | nil => exact absurd rfl nonempty
  | cons c text =>
      simp only [scan?, descendant?, child?, index?, found]
      rfl

/-! ## The characters of a segment -/

/-- In the text of a segment with a name there are only dots and word characters. -/
theorem not_mem_display_of_named {segment : Segment} {c : Char} (wellFormed : segment.WellFormed)
    (named : segment.isIndex = false) (notDot : c ≠ '.') (other : isWordChar c = false) :
    c ∉ segment.display := by
  cases segment with
  | child name =>
      have outside : c ∉ name.toList := IsName.not_mem wellFormed other
      simp [display, notDot, outside]
  | descendant name =>
      have outside : c ∉ name.toList := IsName.not_mem wellFormed other
      simp [display, notDot, outside]
  | index text => cases named

theorem newline_not_mem_display {segment : Segment} (wellFormed : segment.WellFormed) :
    '\n' ∉ segment.display := by
  cases segment with
  | index text => simpa [display] using wellFormed.2
  | _ => exact not_mem_display_of_named wellFormed rfl (by decide) (by decide)

/-- A segment with brackets ends with one. -/
theorem bracket_mem_display {segment : Segment} (bracketed : segment.isIndex = true) :
    ']' ∈ segment.display := by
  cases segment with
  | index text => simp [display]
  | _ => cases bracketed

end Segment

/-! ## Paths -/

namespace Path

/-- The form of the paths that are read. -/
def WellFormed (path : Path) : Prop := ∀ segment ∈ path, segment.WellFormed

theorem wellFormed_scan (s : List Char) : (scan s).WellFormed := by
  fun_induction scan s with
  | case1 => exact fun segment inside => absurd inside List.not_mem_nil
  | case2 c s segment rest found shorter ih =>
      exact List.forall_mem_cons.2 ⟨Segment.wellFormed_of_scan? found, ih⟩
  | case3 c s nothing ih => exact ih

theorem noWord_display_append (path : Path) {rest : List Char} (ends : Segment.NoWord rest) :
    Segment.NoWord (path.flatMap Segment.display ++ rest) := by
  cases path with
  | nil => exact ends
  | cons segment path =>
      rw [List.flatMap_cons, List.append_assoc]
      cases segment <;> exact Segment.noWord_cons (by decide)

/-- Segments with names are read back from their texts. -/
theorem scan_display_append {path : Path} {rest : List Char} (wellFormed : path.WellFormed)
    (named : path.countP Segment.isIndex = 0) (ends : Segment.NoWord rest) :
    scan (path.flatMap Segment.display ++ rest) = path ++ scan rest := by
  induction path with
  | nil => rfl
  | cons segment path ih =>
      obtain ⟨first, others⟩ := List.forall_mem_cons.1 wellFormed
      rw [List.countP_eq_zero, List.forall_mem_cons, ← List.countP_eq_zero] at named
      have here := Segment.scan?_display_append first (by simpa using named.1)
        (noWord_display_append path ends)
      rw [List.flatMap_cons, List.append_assoc, scan_of_some here, ih others named.2,
        List.cons_append]

theorem scan_display_of_named {path : Path} (wellFormed : path.WellFormed)
    (named : path.countP Segment.isIndex = 0) : scan (path.flatMap Segment.display) = path := by
  have nothing : Segment.NoWord [] := rfl
  have read := scan_display_append wellFormed named nothing
  rwa [List.append_nil, scan, List.append_nil] at read

theorem newline_not_mem_display {path : Path} (wellFormed : path.WellFormed) :
    '\n' ∉ path.flatMap Segment.display := by
  intro inside
  obtain ⟨segment, member, inside⟩ := List.mem_flatMap.1 inside
  exact Segment.newline_not_mem_display (wellFormed segment member) inside

theorem bracket_not_mem_display {path : Path} (wellFormed : path.WellFormed)
    (named : path.countP Segment.isIndex = 0) : ']' ∉ path.flatMap Segment.display := by
  intro inside
  obtain ⟨segment, member, inside⟩ := List.mem_flatMap.1 inside
  have named : segment.isIndex = false := by simpa using List.countP_eq_zero.1 named segment member
  exact Segment.not_mem_display_of_named (wellFormed segment member) named (by decide) (by decide)
    inside

end Path

end JsonSelect
