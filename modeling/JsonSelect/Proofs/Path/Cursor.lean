/-
# JsonSelect.Proofs.Path.Cursor -- segments at byte offsets

A cursor into an expression counts bytes.  To find a segment there, slices of the expression are
looked at, and a slice that does not start and end between two characters is a fault.

* `Segment.takeWhile_encode`: words are read byte by byte and end between two characters.
* `Cursor.bracketed_of_slice`: so does the text between brackets.
* `Cursor.nextSegment_of_slice`: what is found at the cursor is the segment that begins there,
  and the offset behind it is that of its text; none of the slices is a fault.
-/
import JsonSelect.Except
import JsonSelect.Proofs.Path.WellFormed
import JsonSelect.Proofs.Text.Offsets

namespace JsonSelect

set_option autoImplicit false

open Utf8 (BadSlice sliceFrom sliceTo size)

/-! ## Words in bytes -/

namespace Segment

/-- The codes of the letters and digits of ASCII and of the underscore. -/
def IsWordCode (n : Nat) : Prop :=
  0x30 ≤ n ∧ n ≤ 0x39 ∨ 0x41 ≤ n ∧ n ≤ 0x5a ∨ 0x61 ≤ n ∧ n ≤ 0x7a ∨ n = 0x5f

instance (n : Nat) : Decidable (IsWordCode n) :=
  inferInstanceAs (Decidable (_ ∨ _ ∨ _ ∨ _))

def isWordByte (b : UInt8) : Bool := decide (IsWordCode b.toNat)

theorem isWordChar_iff (c : Char) : isWordChar c = true ↔ IsWordCode c.toNat := by
  rw [isWordChar_eq_isWord, isWord, decide_eq_true_iff, Char.ext_iff, ← UInt32.toNat_inj]
  rfl

theorem not_isWordByte {n : Nat} (high : 0x80 ≤ n) (byte : n < 0x100) :
    isWordByte (UInt8.ofNat n) = false := by
  have value : (UInt8.ofNat n).toNat = n := Nat.mod_eq_of_lt byte
  rw [isWordByte, value, decide_eq_false_iff_not, IsWordCode]
  omega

/-- A character below 0x80 is one byte, and any other one begins with a byte that is not below
0x80. -/
theorem utf8EncodeChar_cases (c : Char) :
    (c.toNat < 0x80 ∧ String.utf8EncodeChar c = [UInt8.ofNat c.toNat]) ∨
      (0x80 ≤ c.toNat ∧ ∃ n more, String.utf8EncodeChar c = UInt8.ofNat n :: more ∧
        0x80 ≤ n ∧ n < 0x100) := by
  have code : c.val.toNat = c.toNat := rfl
  fun_cases String.utf8EncodeChar c with
  | case1 v low => exact .inl ⟨by omega, rfl⟩
  | case2 v => exact .inr ⟨by omega, _, _, rfl, by omega, by omega⟩
  | case3 v => exact .inr ⟨by omega, _, _, rfl, by omega, by omega⟩
  | case4 v => exact .inr ⟨by omega, _, _, rfl, by omega, by omega⟩

/-- A word character has one byte, which is a word byte, and no other character begins with
one. -/
theorem takeWhile_utf8EncodeChar (c : Char) (bytes : List UInt8) :
    (String.utf8EncodeChar c ++ bytes).takeWhile isWordByte =
      if isWordChar c then String.utf8EncodeChar c ++ bytes.takeWhile isWordByte else [] := by
  rcases utf8EncodeChar_cases c with ⟨low, bytes⟩ | ⟨high, n, more, bytes, highByte, byte⟩
  · have value : (UInt8.ofNat c.toNat).toNat = c.toNat := Nat.mod_eq_of_lt (by omega)
    have same : isWordByte (UInt8.ofNat c.toNat) = isWordChar c := by
      rw [Bool.eq_iff_iff, isWordChar_iff, isWordByte, value, decide_eq_true_iff]
    rw [bytes, List.singleton_append, List.singleton_append, List.takeWhile_cons, same]
  · have other : ¬ isWordChar c = true := by
      rw [isWordChar_iff, IsWordCode]
      omega
    rw [bytes, if_neg other, List.cons_append, List.takeWhile_cons, not_isWordByte highByte byte]
    rfl

/-- A run of word bytes is a run of word characters. -/
theorem takeWhile_encode (s : List Char) :
    (Utf8.encode s).takeWhile isWordByte = Utf8.encode (s.takeWhile isWordChar) := by
  induction s with
  | nil => rfl
  | cons c s ih =>
      rw [Utf8.encode_cons, takeWhile_utf8EncodeChar, ih, List.takeWhile_cons]
      split <;> rfl

/-! ## Sizes of texts -/

theorem size_display_child (name : String) :
    size (child name).display = 1 + size name.toList := Utf8.size_cons '.' _

theorem size_display_descendant (name : String) :
    size (descendant name).display = 2 + size name.toList := by
  rw [display, Utf8.size_cons, Utf8.size_cons, ← Nat.add_assoc]
  rfl

theorem size_display_index (text : String) :
    size (index text).display = size text.toList + 2 := by
  rw [display, Utf8.size_cons, Utf8.size_append, Nat.add_comm]
  rfl

theorem size_display_pos (segment : Segment) : 0 < size segment.display := by
  cases segment with
  | child name => exact Nat.pos_of_ne_zero (Utf8.size_cons_ne_zero _ _)
  | descendant name => exact Nat.pos_of_ne_zero (Utf8.size_cons_ne_zero _ _)
  | index text => exact Nat.pos_of_ne_zero (Utf8.size_cons_ne_zero _ _)

end Segment

/-! ## What is found at the cursor -/

namespace Cursor

variable {text rest : List Char} {i : Nat}

def startsWith (text : List Char) (i : Nat) (literal : List Char) : Except BadSlice Bool := do
  return literal.isPrefixOf (← sliceFrom text i)

/-- The character at an offset. -/
def char? (text : List Char) (i : Nat) : Except BadSlice (Option Char) := do
  return (← sliceFrom text i).head?

/-- The word at an offset, whose length is that of a run of word bytes. -/
def wordAt (text : List Char) (i : Nat) : Except BadSlice (Option String) := do
  let rest ← sliceFrom text i
  let length := ((Utf8.encode rest).takeWhile Segment.isWordByte).length
  if length = 0 then return none
  else return some (String.ofList (← sliceTo rest length))

/-- The text between the bracket at an offset and the last closing bracket of the line. -/
def bracketed (text : List Char) (i : Nat) : Except BadSlice (Option String) := do
  let rest ← sliceFrom text (i + 1)
  let line ← sliceTo rest ((Utf8.find? '\n' rest).getD (size rest))
  match Utf8.findLast? ']' line with
  | none => return none
  | some close =>
      if close = 0 then return none
      else return some (String.ofList (← sliceTo line close))

/-- A descendant at an offset, and the offset behind it. -/
def descendantAt (text : List Char) (i : Nat) : Except BadSlice (Option (Segment × Nat)) := do
  if ← startsWith text i ['.', '.'] then
    return (← wordAt text (i + 2)).map fun name => (.descendant name, i + (2 + size name.toList))
  else return none

def childAt (text : List Char) (i : Nat) : Except BadSlice (Option (Segment × Nat)) := do
  if (← char? text i) = some '.' then
    return (← wordAt text (i + 1)).map fun name => (.child name, i + (1 + size name.toList))
  else return none

def indexAt (text : List Char) (i : Nat) : Except BadSlice (Option (Segment × Nat)) := do
  if (← char? text i) = some '[' then
    return (← bracketed text i).map fun spec => (.index spec, i + (size spec.toList + 2))
  else return none

/-- The first of the three forms that is there. -/
def nextSegment (text : List Char) (i : Nat) : Except BadSlice (Option (Segment × Nat)) := do
  match ← descendantAt text i with
  | some found => return some found
  | none =>
      match ← childAt text i with
      | some found => return some found
      | none => indexAt text i

/-! ## Segments in bytes -/

theorem startsWith_of_slice (here : sliceFrom text i = .ok rest) (literal : List Char) :
    startsWith text i literal = .ok (literal.isPrefixOf rest) := by
  rw [startsWith, here]
  rfl

theorem char?_of_slice (here : sliceFrom text i = .ok rest) :
    char? text i = .ok rest.head? := by
  rw [char?, here]
  rfl

theorem wordAt_of_slice (here : sliceFrom text i = .ok rest) :
    wordAt text i = .ok ((Segment.word? rest).map Prod.fst) := by
  have word := Utf8.sliceTo_takeWhile Segment.isWordChar rest
  rw [wordAt, here, ok_bind, Segment.takeWhile_encode, Segment.word?]
  cases run : rest.takeWhile Segment.isWordChar with
  | nil => rfl
  | cons c name =>
      rw [run] at word
      show (if size (c :: name) = 0 then _ else (sliceTo rest (size (c :: name)) >>= _)) = _
      rw [if_neg (Utf8.size_cons_ne_zero c name), word]
      rfl

/-- The last closing bracket of a line, in bytes. -/
theorem findLast?_line (s : List Char) :
    Utf8.findLast? ']' (s.takeWhile (· ≠ '\n')) =
      (Segment.beforeLastBracket? s).map fun found => size found.1 := by
  induction s with
  | nil => rfl
  | cons c s ih =>
      by_cases newline : c = '\n'
      · simp [newline, Segment.beforeLastBracket?, Utf8.findLast?]
      · simp only [List.takeWhile_cons, ne_eq, newline, not_false_eq_true, decide_true, if_true,
          if_false, Utf8.findLast?, Segment.beforeLastBracket?]
        rw [ih]
        cases Segment.beforeLastBracket? s with
        | some found => simp
        | none =>
            by_cases closes : c = ']' <;> simp [closes]

/-- A line can be cut at its last closing bracket. -/
theorem sliceTo_line {s left : List Char} {spec : List Char}
    (found : Segment.beforeLastBracket? s = some (spec, left)) :
    sliceTo (s.takeWhile (· ≠ '\n')) (size spec) = .ok spec := by
  have oneLine := Segment.newline_not_mem_of_beforeLastBracket? found
  have pieces := Segment.append_of_beforeLastBracket? found
  refine Utf8.sliceTo_eq_ok_iff.2 ⟨(']' :: left).takeWhile (· ≠ '\n'), ?_, rfl⟩
  rw [← pieces, List.takeWhile_append_of_pos]
  intro c member
  rw [decide_eq_true_iff]
  rintro rfl
  exact oneLine member

/-- The text inside of a bracket that was just opened, and what follows the closing one. -/
def inside? (s : List Char) : Option (String × List Char) :=
  match Segment.beforeLastBracket? s with
  | some (c :: spec, left) => some (String.ofList (c :: spec), left)
  | _ => none

theorem index?_bracket (s : List Char) :
    Segment.index? ('[' :: s) = (inside? s).map fun found => (.index found.1, found.2) := by
  rw [Segment.index?, inside?]
  cases Segment.beforeLastBracket? s with
  | none => rfl
  | some found =>
      obtain ⟨spec, left⟩ := found
      cases spec <;> rfl

theorem bracketed_of_slice (behind : sliceFrom text (i + 1) = .ok rest) :
    bracketed text i = .ok ((inside? rest).map Prod.fst) := by
  have line := Utf8.sliceTo_takeWhile (· ≠ '\n') rest
  rw [bracketed, behind, ok_bind, Utf8.getD_find?, line, ok_bind, findLast?_line, inside?]
  cases found : Segment.beforeLastBracket? rest with
  | none => rfl
  | some way =>
      obtain ⟨spec, left⟩ := way
      have cut := sliceTo_line found
      cases spec with
      | nil => rfl
      | cons c spec =>
          show (if size (c :: spec) = 0 then _ else (sliceTo _ (size (c :: spec)) >>= _)) = _
          rw [if_neg (Utf8.size_cons_ne_zero c spec), cut]
          rfl

/-- A segment and what follows it, with the offset behind the segment. -/
def placed (i : Nat) (found : Segment × List Char) : Segment × Nat :=
  (found.1, i + size found.1.display)

/-- Where the width of a form is that of its text, a text read in this form is placed. -/
theorem map_placed {form : String → Segment} {width : String → Nat}
    (wide : ∀ name, size (form name).display = width name) (found : Option (String × List Char)) :
    (found.map Prod.fst).map (fun name => (form name, i + width name)) =
      (found.map fun way => (form way.1, way.2)).map (placed i) := by
  cases found with
  | none => rfl
  | some way =>
      show some (_, i + width way.1) = some (_, i + size (form way.1).display)
      rw [wide]

theorem descendantAt_of_slice (here : sliceFrom text i = .ok rest) :
    descendantAt text i = .ok ((Segment.descendant? rest).map (placed i)) := by
  rw [descendantAt, startsWith_of_slice here, ok_bind]
  by_cases dots : ['.', '.'].isPrefixOf rest = true
  · obtain ⟨s, rfl⟩ := List.isPrefixOf_iff_prefix.1 dots
    have behind : sliceFrom text (i + 2) = .ok s := Utf8.sliceFrom_add ['.', '.'] here
    rw [if_pos dots, wordAt_of_slice behind]
    exact congrArg Except.ok (map_placed Segment.size_display_descendant (Segment.word? s))
  · have nothing : Segment.descendant? rest = none := by
      unfold Segment.descendant?
      split
      · exact absurd rfl dots
      · rfl
    rw [if_neg dots, nothing]
    rfl

theorem childAt_of_slice (here : sliceFrom text i = .ok rest) :
    childAt text i = .ok ((Segment.child? rest).map (placed i)) := by
  rw [childAt, char?_of_slice here, ok_bind]
  by_cases dot : rest.head? = some '.'
  · obtain ⟨s, rfl⟩ := List.head?_eq_some_iff.1 dot
    have behind : sliceFrom text (i + 1) = .ok s := Utf8.sliceFrom_add ['.'] here
    rw [if_pos dot, wordAt_of_slice behind]
    exact congrArg Except.ok (map_placed Segment.size_display_child (Segment.word? s))
  · have nothing : Segment.child? rest = none := by
      unfold Segment.child?
      split
      · exact absurd rfl dot
      · rfl
    rw [if_neg dot, nothing]
    rfl

theorem indexAt_of_slice (here : sliceFrom text i = .ok rest) :
    indexAt text i = .ok ((Segment.index? rest).map (placed i)) := by
  rw [indexAt, char?_of_slice here, ok_bind]
  by_cases bracket : rest.head? = some '['
  · obtain ⟨s, rfl⟩ := List.head?_eq_some_iff.1 bracket
    have behind : sliceFrom text (i + 1) = .ok s := Utf8.sliceFrom_add ['['] here
    rw [if_pos bracket, bracketed_of_slice behind, index?_bracket]
    exact congrArg Except.ok (map_placed Segment.size_display_index (inside? s))
  · have nothing : Segment.index? rest = none := by
      unfold Segment.index?
      split
      · exact absurd rfl bracket
      · rfl
    rw [if_neg bracket, nothing]
    rfl

/-- What is found at the cursor is the segment that begins there, with the offset behind it. -/
theorem nextSegment_of_slice (here : sliceFrom text i = .ok rest) :
    nextSegment text i = .ok ((Segment.scan? rest).map (placed i)) := by
  rw [nextSegment, descendantAt_of_slice here, childAt_of_slice here, indexAt_of_slice here,
    Segment.scan?]
  cases Segment.descendant? rest with
  | some found => rfl
  | none => cases Segment.child? rest <;> rfl

/-- A bracket with a character of two bytes in it, behind another one. -/
example : nextSegment "é[é].b".toList 2 = .ok (some (.index "é", 6)) := rfl

end Cursor

end JsonSelect
