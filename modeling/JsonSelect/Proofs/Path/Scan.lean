/-
# JsonSelect.Proofs.Path.Scan -- segments as the matches of a pattern

* `Segment.scan?_eq`: the segment that begins at some place is what the pattern
  `\.\.\w+|\.\w+|\[.+\]` matches there.
* `Path.compile_eq_found`: a compiled path consists of the matches of that pattern in the
  expression, which the pattern splits in one way only.
-/
import JsonSelect.Path.Compile
import JsonSelect.Proofs.Text.Pattern

namespace JsonSelect

set_option autoImplicit false

namespace Segment

/-! ## What a scan can find -/

/-- A segment that begins somewhere is of one of three forms. -/
theorem scan?_cases {s rest : List Char} {segment : Segment}
    (found : scan? s = some (segment, rest)) :
    (∃ name t, s = '.' :: '.' :: t ∧ segment = .descendant name ∧ word? t = some (name, rest)) ∨
      (∃ name t, s = '.' :: t ∧ segment = .child name ∧ word? t = some (name, rest)) ∨
      ∃ c text t, s = '[' :: t ∧ segment = .index (String.ofList (c :: text)) ∧
        beforeLastBracket? t = some (c :: text, rest) := by
  simp only [scan?, Option.or_eq_some_iff] at found
  rcases found with found | ⟨-, found | ⟨-, found⟩⟩
  · unfold descendant? at found
    split at found
    · rename_i t
      obtain ⟨⟨name, left⟩, word, same⟩ := Option.map_eq_some_iff.1 found
      cases same
      exact .inl ⟨name, t, rfl, rfl, word⟩
    · cases found
  · unfold child? at found
    split at found
    · rename_i t
      obtain ⟨⟨name, left⟩, word, same⟩ := Option.map_eq_some_iff.1 found
      cases same
      exact .inr (.inl ⟨name, t, rfl, rfl, word⟩)
    · cases found
  · unfold index? at found
    split at found
    · rename_i t
      split at found
      · rename_i c text left inner
        cases found
        exact .inr (.inr ⟨c, text, t, rfl, rfl, inner⟩)
      · cases found
    · cases found

/-! ## The pattern of a segment -/

/-- The letters and digits of ASCII and the underscore. -/
def isWord (c : Char) : Bool :=
  decide ('0' ≤ c ∧ c ≤ '9' ∨ 'A' ≤ c ∧ c ≤ 'Z' ∨ 'a' ≤ c ∧ c ≤ 'z' ∨ c = '_')

def isInLine (c : Char) : Bool := decide (c ≠ '\n')

open Pattern in
/-- The pattern `\.\.\w+|\.\w+|\[.+\]`. -/
def pattern : Pattern :=
  .alt (.seq (char '.') (.seq (char '.') (.many isWord)))
    (.alt (.seq (char '.') (.many isWord))
      (.seq (char '[') (.seq (.many isInLine) (char ']'))))

/-- The segment that a match spells, without the dots or brackets. -/
def ofMatch : List Char → Segment
  | '.' :: '.' :: name => .descendant (String.ofList name)
  | '.' :: name => .child (String.ofList name)
  | text => .index (String.ofList text.tail.dropLast)

theorem isWordChar_eq_isWord (c : Char) : isWordChar c = isWord c := by
  have upper : c.isUpper = true ↔ 'A' ≤ c ∧ c ≤ 'Z' := decide_eq_true_iff
  have lower : c.isLower = true ↔ 'a' ≤ c ∧ c ≤ 'z' := by
    show (decide ('a' ≤ c) && decide (c ≤ 'z')) = true ↔ _
    rw [Bool.and_eq_true, decide_eq_true_iff, decide_eq_true_iff]
  have digit : c.isDigit = true ↔ '0' ≤ c ∧ c ≤ '9' := by
    show (decide ('0' ≤ c) && decide (c ≤ '9')) = true ↔ _
    rw [Bool.and_eq_true, decide_eq_true_iff, decide_eq_true_iff]
  have same : isWordChar c = (((c.isUpper || c.isLower) || c.isDigit) || c == '_') := rfl
  rw [Bool.eq_iff_iff, same, isWord, decide_eq_true_iff, Bool.or_eq_true, Bool.or_eq_true,
    Bool.or_eq_true, beq_iff_eq, upper, lower, digit]
  rw [@or_comm (_ ∨ _) ('0' ≤ c ∧ c ≤ '9'), or_assoc, or_assoc]

/-! ## One segment -/

theorem word?_eq (s : List Char) :
    word? s = ((Pattern.many isWord).match? s).map fun (m, rest) => (String.ofList m, rest) := by
  rw [Pattern.match?_many, word?, funext isWordChar_eq_isWord]
  cases s.takeWhile isWord <;> rfl

theorem eq_cons_of_beforeLastBracket?_eq_nil {s rest : List Char}
    (here : beforeLastBracket? s = some ([], rest)) : s = ']' :: rest := by
  cases s with
  | nil => cases here
  | cons c s =>
      simp only [beforeLastBracket?] at here
      split at here
      · cases here
      · split at here
        · cases here
        · split at here
          · rename_i closes
            cases here
            rw [closes]
          · cases here

theorem beforeLastBracket?_closing_ne_none (s : List Char) :
    beforeLastBracket? (']' :: s) ≠ none := by
  simp only [beforeLastBracket?]
  rw [if_neg (by decide)]
  split <;> simp

/-- Looking for the last bracket is what backtracking does. -/
theorem match?_bracketed (s : List Char) :
    ((Pattern.many isInLine).seq (.char ']')).match? s =
      match beforeLastBracket? s with
      | some (c :: text, rest) => some (c :: text ++ [']'], rest)
      | _ => none := by
  induction s with
  | nil => rfl
  | cons c s ih =>
      rw [Pattern.match?_seq_many_cons, ih]
      simp only [beforeLastBracket?, isInLine]
      by_cases newline : c = '\n'
      · simp [newline]
      · simp only [newline, ne_eq, not_false_eq_true, decide_true, if_true, if_false]
        cases inner : beforeLastBracket? s with
        | none =>
            -- no bracket follows on the line, so none can close here either
            have open_ : (Pattern.char ']').match? s = none := by
              cases s with
              | nil => rfl
              | cons d s =>
                  rw [Pattern.match?_char_cons, if_neg]
                  rintro rfl
                  exact beforeLastBracket?_closing_ne_none s inner
            rw [open_]
            by_cases closes : c = ']' <;> simp [closes]
        | some found =>
            obtain ⟨text, rest⟩ := found
            cases text with
            | nil =>
                rw [eq_cons_of_beforeLastBracket?_eq_nil inner, Pattern.match?_char_cons]
                simp
            | cons d text => simp

theorem descendant?_eq (s : List Char) :
    descendant? s =
      (((Pattern.char '.').seq ((Pattern.char '.').seq (.many isWord))).match? s).map
        fun (m, rest) => (ofMatch m, rest) := by
  unfold descendant?
  split
  · simp [Pattern.match?_seq_char_cons, word?_eq, ofMatch, Function.comp_def]
  · rename_i other
    cases s with
    | nil => rfl
    | cons c s =>
        by_cases dot : c = '.'
        · subst dot
          cases s with
          | nil => rfl
          | cons d s =>
              have noDot : d ≠ '.' := by rintro rfl; exact other s rfl
              simp [Pattern.match?_seq_char_cons, noDot]
        · simp [Pattern.match?_seq_char_cons, dot]

theorem ofMatch_child {name : List Char} (isName : ∀ c ∈ name, isWord c = true) :
    ofMatch ('.' :: name) = .child (String.ofList name) := by
  unfold ofMatch
  split
  · rename_i same
    cases same
    exact absurd (isName '.' List.mem_cons_self) (by decide)
  · rename_i same
    cases same
    rfl
  · rename_i other
    exact absurd rfl (other name)

theorem child?_eq (s : List Char) :
    child? s = (((Pattern.char '.').seq (.many isWord)).match? s).map
      fun (m, rest) => (ofMatch m, rest) := by
  unfold child?
  split
  · rename_i s
    rw [Pattern.match?_seq_char_cons, word?_eq, if_pos rfl]
    cases found : (Pattern.many isWord).match? s with
    | none => rfl
    | some way => simp [ofMatch_child (Pattern.test_of_match?_many found)]
  · rename_i other
    cases s with
    | nil => rfl
    | cons c s =>
        have noDot : c ≠ '.' := by rintro rfl; exact other s rfl
        simp [Pattern.match?_seq_char_cons, noDot]

theorem index?_eq (s : List Char) :
    index? s =
      (((Pattern.char '[').seq ((Pattern.many isInLine).seq (.char ']'))).match? s).map
        fun (m, rest) => (ofMatch m, rest) := by
  unfold index?
  split
  · rename_i s
    rw [Pattern.match?_seq_char_cons, match?_bracketed, if_pos rfl]
    cases found : beforeLastBracket? s with
    | none => rfl
    | some way =>
        obtain ⟨text, rest⟩ := way
        cases text with
        | nil => rfl
        | cons c text =>
            show _ = some (Segment.index (String.ofList (c :: text ++ [']']).dropLast), rest)
            rw [List.dropLast_concat]
  · rename_i other
    cases s with
    | nil => rfl
    | cons c s =>
        have closed : c ≠ '[' := by rintro rfl; exact other s rfl
        simp [Pattern.match?_seq_char_cons, closed]

/-- A segment begins where the pattern matches, and ends with the match. -/
theorem scan?_eq (s : List Char) :
    scan? s = (pattern.match? s).map fun (m, rest) => (ofMatch m, rest) := by
  rw [scan?, pattern, Pattern.match?_alt, Pattern.match?_alt, Option.map_or, Option.map_or,
    ← descendant?_eq, ← child?_eq, ← index?_eq]

end Segment

/-! ## Whole expressions -/

namespace Path

theorem scan_cons_of_none {c : Char} {s : List Char} (nothing : Segment.scan? (c :: s) = none) :
    scan (c :: s) = scan s := by
  rw [scan]
  split
  · rename_i found
    rw [nothing] at found
    cases found
  · rfl

theorem scan_of_some {s rest : List Char} {segment : Segment}
    (found : Segment.scan? s = some (segment, rest)) : scan s = segment :: scan rest := by
  cases s with
  | nil => cases found
  | cons c s =>
      rw [scan]
      split
      · rename_i found'
        rw [found] at found'
        cases found'
        rfl
      · rename_i nothing
        rw [found] at nothing
        cases nothing

/-- The pattern splits a text so that its matches are the segments. -/
theorem exists_splits_of_scan (s : List Char) :
    ∃ split, Segment.pattern.Splits s split ∧ scan s = split.found.map Segment.ofMatch := by
  fun_induction scan s with
  | case1 => exact ⟨⟨[], []⟩, Pattern.splits_nil_iff.2 rfl, rfl⟩
  | case2 c s segment rest found shorter ih =>
      obtain ⟨split, splits, same⟩ := ih
      rw [Segment.scan?_eq, Option.map_eq_some_iff] at found
      obtain ⟨⟨m, left⟩, found, spells⟩ := found
      cases spells
      exact ⟨split.behind m, (Pattern.splits_iff_of_match found).2 ⟨split, splits, rfl⟩,
        by rw [Pattern.Split.found_behind, List.map_cons, same]⟩
  | case3 c s nothing ih =>
      obtain ⟨split, splits, same⟩ := ih
      rw [Segment.scan?_eq, Option.map_eq_none_iff] at nothing
      exact ⟨split.widen c, (Pattern.splits_iff_of_no_match nothing).2 ⟨split, splits, rfl⟩,
        by rw [Pattern.Split.found_widen, same]⟩

/-- **A path consists of the matches of the pattern.**  The expression falls into gaps in
which no match begins and the matches that the pattern takes from left to right, in one
way only; the segments of the path are those matches in order. -/
theorem compile_eq_found (expression : String) :
    ∃ split, Segment.pattern.Splits expression.toList split ∧
      (∀ other, Segment.pattern.Splits expression.toList other → other = split) ∧
      compile expression = split.found.map Segment.ofMatch := by
  obtain ⟨split, splits, same⟩ := exists_splits_of_scan expression.toList
  exact ⟨split, splits, fun other splits' => Pattern.splits_unique _ splits' splits, same⟩

/-- A third dot belongs to no match, and a bracket is closed by the last one on the line. -/
example : compile "$...a[0].b[1]" = [.descendant "a", .index "0].b[1"] := by cbv

end Path

end JsonSelect
