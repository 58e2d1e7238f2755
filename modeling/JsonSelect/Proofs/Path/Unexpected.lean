/-
# JsonSelect.Proofs.Path.Unexpected -- where strict compilation stops

Strict compilation stops at the first character that belongs to no segment.  What was read
before it stays the same if the expression is cut off there, brackets included: the last
closing bracket of the line has been read, so none of the segments looks over the cut.

* `Segment.scan?_cut`: a segment does not depend on the text that is cut off behind it.
* `Path.scanStrict_eq_error`: a strict scan that stops has accepted what is in front, and
  the lenient one goes on behind the character.
* `Path.compileStrict_stops`: the character that is reported is the first one that the
  lenient compilation drops, with its position, and the path falls into what is in front
  of it and what is behind.
-/
import Mathlib.Data.List.Basic
import JsonSelect.Proofs.Path.WellFormed

namespace JsonSelect

set_option autoImplicit false

namespace Segment

/-! ## Cutting off the text behind a segment -/

theorem NoWord.of_append {s t : List Char} (ends : NoWord (s ++ t)) : NoWord s := by
  cases s with
  | nil => rfl
  | cons c s =>
      by_cases word : isWordChar c = true
      · rw [NoWord, List.cons_append, List.takeWhile_cons_of_pos word] at ends
        cases ends
      · exact noWord_cons (by simpa using word)

/-- A name is read as far as it goes. -/
theorem noWord_of_word? {s rest : List Char} {name : String} (found : word? s = some (name, rest)) :
    NoWord rest := by
  unfold word? at found
  split at found
  · cases found
  · cases found
    have stops := List.head?_dropWhile_not isWordChar s
    cases left : s.dropWhile isWordChar with
    | nil => rfl
    | cons c rest =>
        rw [left] at stops
        exact noWord_cons (by simpa using stops)

theorem beforeLastBracket?_eq_none_of_append {s t : List Char}
    (unclosed : beforeLastBracket? (s ++ t) = none) : beforeLastBracket? s = none := by
  induction s with
  | nil => rfl
  | cons c s ih =>
      simp only [List.cons_append, beforeLastBracket?] at unclosed ⊢
      by_cases newline : c = '\n'
      · rw [if_pos newline]
      · rw [if_neg newline] at unclosed ⊢
        cases inner : beforeLastBracket? (s ++ t) with
        | some found =>
            rw [inner] at unclosed
            cases unclosed
        | none =>
            rw [inner] at unclosed
            rw [ih inner]
            by_cases closes : c = ']'
            · simp [closes] at unclosed
            · simp [closes]

/-- A segment is read in the same way if the text ends somewhere behind it. -/
theorem scan?_cut {s rest tail : List Char} {segment : Segment}
    (found : scan? s = some (segment, rest ++ tail)) :
    scan? (segment.display ++ rest) = some (segment, rest) := by
  have wellFormed := wellFormed_of_scan? found
  rcases scan?_cases found with
    ⟨name, t, -, rfl, word⟩ | ⟨name, t, -, rfl, word⟩ | ⟨c, text, t, -, rfl, inner⟩
  · exact scan?_display_append wellFormed rfl (noWord_of_word? word).of_append
  · exact scan?_display_append wellFormed rfl (noWord_of_word? word).of_append
  · have last := beforeLastBracket?_eq_none_of_append (beforeLastBracket?_rest inner)
    have oneLine := newline_not_mem_of_beforeLastBracket? inner
    have bracketed := scan?_bracketed (List.cons_ne_nil c text) oneLine last
    rw [display, String.toList_ofList]
    simpa using bracketed

end Segment

namespace Path

/-! ## Scans that stop -/

/-- What is in front of the character at which a strict scan stops is accepted by itself, and
the lenient scan finds the same there and goes on behind the character. -/
theorem scanStrict_eq_error {s rest : List Char} {c : Char}
    (stops : scanStrict s = .error (c, rest)) :
    ∃ before path, s = before ++ c :: rest ∧ Segment.scan? (c :: rest) = none ∧
      scanStrict before = .ok path ∧ scan s = path ++ scan rest := by
  fun_induction scan s with
  | case1 =>
      rw [scanStrict_nil] at stops
      cases stops
  | case2 d s segment left found shorter ih =>
      rw [scanStrict_of_some found, map_eq_error_iff] at stops
      obtain ⟨before, path, rfl, nothing, accepted, same⟩ := ih stops
      have text := Segment.display_append_of_scan? found
      refine ⟨segment.display ++ before, segment :: path, ?_, nothing, ?_, ?_⟩
      · rw [← text, List.append_assoc]
      · rw [scanStrict_of_some (Segment.scan?_cut found), accepted]
        rfl
      · rw [same, List.cons_append]
  | case3 d s nothing ih =>
      rw [scanStrict_cons_of_none nothing] at stops
      cases stops
      exact ⟨[], [], rfl, nothing, scanStrict_nil, rfl⟩

/-- The character at which a strict scan stops is the first one in a gap. -/
theorem dropped_of_scanStrict_eq_error {s rest : List Char} {c : Char}
    (stops : scanStrict s = .error (c, rest)) {before : List Char} (text : s = before ++ c :: rest)
    {split : Pattern.Split} (splits : Segment.pattern.Splits s split) (start : Nat) :
    ∃ more, split.dropped start = (start + Utf8.size before, c) :: more ∧
      ∀ d ∈ more, start + Utf8.size before ≤ d.1 := by
  fun_induction scan s generalizing before split start with
  | case1 =>
      rw [scanStrict_nil] at stops
      cases stops
  | case2 d s segment left found shorter ih =>
      rw [scanStrict_of_some found, map_eq_error_iff] at stops
      obtain ⟨inside, -, rfl, -⟩ := scanStrict_eq_error stops
      have whole := Segment.display_append_of_scan? found
      rw [Segment.scan?_eq, Option.map_eq_some_iff] at found
      obtain ⟨⟨m, left⟩, found, spells⟩ := found
      cases spells
      obtain ⟨-, matched⟩ := Pattern.append_of_match? found
      obtain ⟨others, splitsRest, rfl⟩ := (Pattern.splits_iff_of_match found).1 splits
      obtain ⟨more, same, later⟩ := ih stops rfl splitsRest (start + Utf8.size m)
      have front : before = m ++ inside := by
        rw [text, ← List.append_assoc] at matched
        exact (List.append_cancel_right matched).symm
      rw [front, Utf8.size_append, Pattern.Split.dropped_behind, ← Nat.add_assoc]
      exact ⟨more, same, later⟩
  | case3 d s nothing ih =>
      rw [scanStrict_cons_of_none nothing] at stops
      cases stops
      rw [Segment.scan?_eq, Option.map_eq_none_iff] at nothing
      obtain ⟨others, -, rfl⟩ := (Pattern.splits_iff_of_no_match nothing).1 splits
      have front : before = [] := List.self_eq_append_left.1 text
      rw [front, Utf8.size_nil, Nat.add_zero, Pattern.Split.dropped_widen]
      refine ⟨_, rfl, ?_⟩
      intro d member
      have := Pattern.Split.le_of_mem_dropped member
      omega

/-! ## Whole expressions -/

/-- What an expression begins with before it is scanned strictly: a dollar sign, or nothing
where there is none. -/
def Opens (opening s : List Char) : Prop :=
  opening = ['$'] ∨ opening = [] ∧ ∀ t, s ≠ '$' :: t

theorem exists_opens (s : List Char) : ∃ opening, s = opening ++ afterDollar s ∧
    Opens opening (afterDollar s) := by
  by_cases dollar : ∃ t, s = '$' :: t
  · obtain ⟨t, rfl⟩ := dollar
    exact ⟨['$'], rfl, .inl rfl⟩
  · have noDollar : ∀ t, s ≠ '$' :: t := fun t same => dollar ⟨t, same⟩
    rw [afterDollar_of_ne noDollar]
    exact ⟨[], rfl, .inr ⟨rfl, noDollar⟩⟩

/-- A part of an expression that begins as the whole does is opened in the same way. -/
theorem afterDollar_append {opening s before rest : List Char} (opens : Opens opening s)
    (text : s = before ++ rest) : afterDollar (opening ++ before) = before := by
  rcases opens with rfl | ⟨rfl, noDollar⟩
  · rfl
  · apply afterDollar_of_ne
    intro t same
    apply noDollar (t ++ rest)
    have same : before = '$' :: t := same
    rw [text, same, List.cons_append]

/-- The dollar sign that an expression may begin with, as a dropped character. -/
def leadingDollar : Nat × Char := (0, '$')

/-- No character but the dollar sign in front is dropped before the one at which strict
compilation stops. -/
theorem dropped_of_opens {opening s before rest : List Char} {c : Char} (opens : Opens opening s)
    (stops : scanStrict s = .error (c, rest)) (text : s = before ++ c :: rest)
    {split : Pattern.Split} (splits : Segment.pattern.Splits (opening ++ s) split) :
    ∃ front more, split.dropped 0 = front ++ (Utf8.size (opening ++ before), c) :: more ∧
      (Utf8.size (opening ++ before), c) ≠ leadingDollar ∧
      (∀ d ∈ front, d = leadingDollar) ∧
      ∀ d ∈ more, Utf8.size (opening ++ before) ≤ d.1 := by
  rw [Utf8.size_append]
  rcases opens with rfl | ⟨rfl, noDollar⟩
  · have noSegment : Segment.pattern.match? ('$' :: s) = none := by
      have nothing := Segment.scan?_dollar s
      rwa [Segment.scan?_eq, Option.map_eq_none_iff] at nothing
    obtain ⟨others, splitsRest, rfl⟩ := (Pattern.splits_iff_of_no_match noSegment).1 splits
    obtain ⟨more, dropped, later⟩ :=
      dropped_of_scanStrict_eq_error stops text splitsRest (Utf8.size ['$'])
    refine ⟨[leadingDollar], more, ?_, ?_, ?_, later⟩
    · rw [Pattern.Split.dropped_widen, Nat.zero_add, dropped]
      rfl
    · intro same
      have none : Utf8.size ['$'] + Utf8.size before = 0 := congrArg Prod.fst same
      have one : Utf8.size ['$'] = 1 := by decide
      omega
    · intro d member
      exact List.mem_singleton.1 member
  · obtain ⟨more, dropped, later⟩ := dropped_of_scanStrict_eq_error stops text splits 0
    refine ⟨[], more, dropped, ?_, ?_, later⟩
    · intro same
      have found : c = '$' := congrArg Prod.snd same
      have none : 0 + Utf8.size before = 0 := congrArg Prod.fst same
      cases before with
      | nil => exact noDollar rest (by rw [text, found, List.nil_append])
      | cons d before =>
          have whole : Utf8.size (d :: before) = Utf8.size [d] + Utf8.size before :=
            Utf8.size_append [d] before
          have some : 0 < Utf8.size [d] := Utf8.size_singleton_pos d
          omega
    · intro d member
      cases member

/-- What strict compilation of an expression knows when it stops at a character, with
`before` in front of it and `rest` behind. -/
structure StopsAt (expression : String) (stop : UnexpectedChar) (before rest : List Char) :
    Prop where
  text : expression.toList = before ++ stop.found :: rest
  position : stop.position = Utf8.size before
  /-- In no way does a segment begin there. -/
  unmatched : Segment.pattern.ways (stop.found :: rest) = []
  /-- It is the first character in a gap, but for the dollar sign in front. -/
  dropped : ∃ split, Segment.pattern.Splits expression.toList split ∧
    compile expression = split.found.map Segment.ofMatch ∧
    (stop.position, stop.found) ∈ split.dropped 0 ∧
    (stop.position, stop.found) ≠ leadingDollar ∧
    ∀ d ∈ split.dropped 0, d ≠ leadingDollar → stop.position ≤ d.1
  /-- What is in front is accepted alone, and the lenient compilation goes on behind. -/
  recovery : ∃ path, compileStrict (String.ofList before) = .ok path ∧
    compile expression = path ++ compile (String.ofList rest)

theorem ways_eq_nil_of_scan? {s : List Char} (nothing : Segment.scan? s = none) :
    Segment.pattern.ways s = [] := by
  rw [Segment.scan?_eq, Option.map_eq_none_iff] at nothing
  exact List.head?_eq_none_iff.1 nothing

/-- A strict compilation that stops, read backwards. -/
theorem exists_scanStrict_of_compileStrict {expression : String} {stop : UnexpectedChar}
    (refused : compileStrict expression = .error stop) :
    ∃ rest, scanStrict (afterDollar expression.toList) = .error (stop.found, rest) ∧
      stop.position = Utf8.size expression.toList - Utf8.size (stop.found :: rest) := by
  rw [compileStrict, mapError_eq_error_iff] at refused
  obtain ⟨⟨c, rest⟩, stops, rfl⟩ := refused
  exact ⟨rest, stops, rfl⟩

/-- **Strict compilation stops at the first dropped character.**  The dollar sign in front
aside, no character is dropped before the one that is reported.  No segment begins there, what
is in front of it is accepted, and the lenient compilation is that of the two parts. -/
theorem compileStrict_stops {expression : String} {stop : UnexpectedChar}
    (refused : compileStrict expression = .error stop) :
    ∃ before rest, StopsAt expression stop before rest := by
  obtain ⟨rest, stops, position⟩ := exists_scanStrict_of_compileStrict refused
  obtain ⟨opening, whole, opens⟩ := exists_opens expression.toList
  obtain ⟨split, splits, segments⟩ := exists_splits_of_scan expression.toList
  have lenient := scan_afterDollar expression.toList
  generalize afterDollar expression.toList = s at stops whole opens lenient
  obtain ⟨before, path, text, nothing, accepted, same⟩ := scanStrict_eq_error stops
  have pieces : expression.toList = (opening ++ before) ++ stop.found :: rest := by
    rw [whole, text, List.append_assoc]
  have here : stop.position = Utf8.size (opening ++ before) := by
    rw [position, pieces, Utf8.size_append]
    omega
  refine ⟨opening ++ before, rest, pieces, here, ways_eq_nil_of_scan? nothing, ?_, path, ?_, ?_⟩
  · refine ⟨split, splits, segments, ?_⟩
    rw [whole] at splits
    obtain ⟨front, more, dropped, proper, leading, later⟩ :=
      dropped_of_opens opens stops text splits
    rw [here, dropped]
    refine ⟨by simp, proper, ?_⟩
    intro d member notLeading
    rcases List.mem_append.1 member with inFront | member
    · exact absurd (leading d inFront) notLeading
    · rcases List.mem_cons.1 member with rfl | member
      · exact Nat.le_refl _
      · exact later d member
  · rw [compileStrict, mapError_eq_ok_iff, String.toList_ofList, afterDollar_append opens text]
    exact accepted
  · rw [compile, compile, String.toList_ofList, ← lenient]
    exact same

end Path

namespace Example

/-- The bracket that is closed before the offence stays one segment, and a later one is read
behind it. -/
theorem stops_behind_bracket :
    Path.compileStrict "$.a[0]é\n.b[1]" = .error ⟨6, 'é'⟩ ∧
      ∃ before rest, Path.StopsAt "$.a[0]é\n.b[1]" ⟨6, 'é'⟩ before rest := by
  have refused : Path.compileStrict "$.a[0]é\n.b[1]" = .error ⟨6, 'é'⟩ := by decide +kernel
  exact ⟨refused, Path.compileStrict_stops refused⟩

end Example

end JsonSelect
