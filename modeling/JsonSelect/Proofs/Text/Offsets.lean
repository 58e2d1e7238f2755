/-
# JsonSelect.Proofs.Text.Offsets -- characters at byte offsets

An offset into a text counts bytes.  A text is sliced only between two of its characters, so a
slice at any other offset is a fault and no text.

* `Utf8.exists_cut?_iff_isValid`: a text can be cut exactly at the valid positions of its
  string.
* `Utf8.sliceFrom_eq_ok_iff`, `Utf8.sliceTo_eq_ok_iff`: what the slices at an offset are.
* `Utf8.sliceFrom_add`: a slice of a slice is a slice at the sum of the offsets.
* `Utf8.getD_find?`, `Utf8.sliceTo_takeWhile`: what stands in front of a character.
-/
import JsonSelect.Text.Utf8

namespace JsonSelect

set_option autoImplicit false

namespace Utf8

variable {text before rest : List Char} {c : Char} {i : Nat}

/-! ## Sizes -/

@[simp] theorem size_cons (c : Char) (text : List Char) :
    size (c :: text) = c.utf8Size + size text := by
  rw [size, encode_cons, List.length_append, String.length_utf8EncodeChar, size]

@[simp] theorem size_eq_zero_iff : size text = 0 ↔ text = [] := by
  cases text with
  | nil => simp
  | cons c text =>
      have := c.utf8Size_pos
      simp only [size_cons, reduceCtorEq, iff_false]
      omega

theorem size_cons_ne_zero (c : Char) (text : List Char) : size (c :: text) ≠ 0 :=
  mt size_eq_zero_iff.1 (List.cons_ne_nil c text)

theorem size_toList (s : String) : size s.toList = s.utf8ByteSize := by
  rw [← String.size_toByteArray, ← String.utf8Encode_toList, List.utf8Encode,
    List.size_toByteArray]
  rfl

/-! ## Cuts -/

/-- The text in front of an offset and the text behind it, if the offset is between two
characters or at one of the ends. -/
def cut? : List Char → Nat → Option (List Char × List Char)
  | [], i => if i = 0 then some ([], []) else none
  | c :: text, i =>
      if i = 0 then some ([], c :: text)
      else if c.utf8Size ≤ i then
        (cut? text (i - c.utf8Size)).map fun cut => (c :: cut.1, cut.2)
      else none

theorem cut?_append (before rest : List Char) :
    cut? (before ++ rest) (size before) = some (before, rest) := by
  induction before with
  | nil => cases rest <;> simp [cut?]
  | cons c before ih =>
      have := c.utf8Size_pos
      simp only [List.cons_append, cut?, size_cons]
      rw [if_neg (by omega), if_pos (by omega), Nat.add_sub_cancel_left, ih]
      rfl

theorem append_of_cut? (cut : cut? text i = some (before, rest)) :
    text = before ++ rest ∧ size before = i := by
  induction text generalizing i before with
  | nil =>
      simp only [cut?] at cut
      split at cut <;> cases cut
      exact ⟨rfl, by simp [*]⟩
  | cons c text ih =>
      simp only [cut?] at cut
      split at cut
      · cases cut
        exact ⟨rfl, by simp [*]⟩
      · split at cut
        · obtain ⟨⟨inner, left⟩, found, same⟩ := Option.map_eq_some_iff.1 cut
          cases same
          obtain ⟨rfl, width⟩ := ih found
          refine ⟨rfl, ?_⟩
          show size (c :: inner) = i
          rw [size_cons, width]
          omega
        · cases cut

theorem cut?_eq_some_iff :
    cut? text i = some (before, rest) ↔ text = before ++ rest ∧ size before = i := by
  constructor
  · exact append_of_cut?
  · rintro ⟨rfl, rfl⟩
    exact cut?_append before rest

/-- **The offsets at which a text can be cut** are the valid positions of the string. -/
theorem exists_cut?_iff_isValid {s : String} :
    (∃ before rest, cut? s.toList i = some (before, rest)) ↔
      (⟨i⟩ : String.Pos.Raw).IsValid s := by
  simp only [cut?_eq_some_iff, String.Pos.Raw.isValid_iff_exists_append]
  constructor
  · rintro ⟨before, rest, pieces, rfl⟩
    refine ⟨String.ofList before, String.ofList rest, ?_, ?_⟩
    · rw [← String.ofList_append, ← pieces, String.ofList_toList]
    · rw [String.Pos.Raw.ext_iff, String.byteIdx_rawEndPos, ← size_toList, String.toList_ofList]
  · rintro ⟨s₁, s₂, rfl, same⟩
    refine ⟨s₁.toList, s₂.toList, String.toList_append, ?_⟩
    rw [size_toList]
    exact (String.Pos.Raw.ext_iff.1 same).symm

/-! ## Slices -/

/-- The fault of a slice that starts or ends at an offset where the text cannot be cut. -/
structure BadSlice where
  offset : Nat
  deriving DecidableEq

/-- The text from an offset on. -/
def sliceFrom (text : List Char) (i : Nat) : Except BadSlice (List Char) :=
  match cut? text i with
  | some cut => .ok cut.2
  | none => .error ⟨i⟩

/-- The text up to an offset. -/
def sliceTo (text : List Char) (i : Nat) : Except BadSlice (List Char) :=
  match cut? text i with
  | some cut => .ok cut.1
  | none => .error ⟨i⟩

theorem sliceFrom_eq_ok_iff :
    sliceFrom text i = .ok rest ↔ ∃ before, text = before ++ rest ∧ size before = i := by
  simp only [← cut?_eq_some_iff, sliceFrom]
  cases cut? text i with
  | none => simp
  | some cut => simp [Prod.ext_iff, eq_comm]

theorem sliceTo_eq_ok_iff :
    sliceTo text i = .ok before ↔ ∃ rest, text = before ++ rest ∧ size before = i := by
  simp only [← cut?_eq_some_iff, sliceTo]
  cases cut? text i with
  | none => simp
  | some cut => simp [Prod.ext_iff, eq_comm]

/-- Inside of a character there is no slice. -/
example : sliceFrom ['.', 'é', 'a'] 2 = .error ⟨2⟩ ∧ sliceFrom ['.', 'é', 'a'] 3 = .ok ['a'] :=
  ⟨rfl, rfl⟩

theorem sliceFrom_zero (text : List Char) : sliceFrom text 0 = .ok text :=
  sliceFrom_eq_ok_iff.2 ⟨[], rfl, rfl⟩

/-- A slice of a slice is a slice at the sum of the offsets. -/
theorem sliceFrom_add (front : List Char) (here : sliceFrom text i = .ok (front ++ rest)) :
    sliceFrom text (i + size front) = .ok rest := by
  obtain ⟨before, rfl, rfl⟩ := sliceFrom_eq_ok_iff.1 here
  refine sliceFrom_eq_ok_iff.2 ⟨before ++ front, ?_, size_append _ _⟩
  rw [List.append_assoc]

theorem size_of_sliceFrom (here : sliceFrom text i = .ok rest) : size text = i + size rest := by
  obtain ⟨before, rfl, rfl⟩ := sliceFrom_eq_ok_iff.1 here
  exact size_append before rest

theorem isValid_of_sliceFrom {s : String} (here : sliceFrom s.toList i = .ok rest) :
    (⟨i⟩ : String.Pos.Raw).IsValid s := by
  obtain ⟨before, pieces⟩ := sliceFrom_eq_ok_iff.1 here
  exact exists_cut?_iff_isValid.1 ⟨before, rest, cut?_eq_some_iff.2 pieces⟩

theorem sliceTo_takeWhile (p : Char → Bool) (text : List Char) :
    sliceTo text (size (text.takeWhile p)) = .ok (text.takeWhile p) :=
  sliceTo_eq_ok_iff.2 ⟨text.dropWhile p, List.takeWhile_append_dropWhile.symm, rfl⟩

/-! ## Searches -/

/-- The offset of the first occurrence of a character. -/
def find? (c : Char) : List Char → Option Nat
  | [] => none
  | d :: text => if d = c then some 0 else (find? c text).map (d.utf8Size + ·)

/-- The offset of the last occurrence of a character. -/
def findLast? (c : Char) : List Char → Option Nat
  | [] => none
  | d :: text =>
      match findLast? c text with
      | some i => some (d.utf8Size + i)
      | none => if d = c then some 0 else none

/-- In front of the first occurrence stands what has none, and this is all where there is no
occurrence. -/
theorem getD_find? (c : Char) (text : List Char) :
    (find? c text).getD (size text) = size (text.takeWhile (· ≠ c)) := by
  induction text with
  | nil => rfl
  | cons d text ih =>
      by_cases same : d = c
      · simp [find?, same]
      · simp only [find?, List.takeWhile_cons, decide_true, if_true, if_false, same, ne_eq,
          not_false_eq_true]
        rw [size_cons, size_cons, ← ih]
        cases find? c text <;> rfl

end Utf8

end JsonSelect
