/-
# JsonSelect.Proofs.Path.Progress -- the loops of a compilation

An expression is compiled by a loop that has a cursor and the segments found so far.  The lenient
loop moves behind each segment and over each character that begins none; the strict one stops at
such a character.

* `Cursor.Follows`: the cursor is between two characters, and the expression compiles to the
  segments that are found and those of the rest.
* `Cursor.Follows.step`: an iteration stops with what the expression compiles to, or it moves
  the cursor on and keeps this.
* `Cursor.Reaches.follows`, `Cursor.exists_stop`: so does every run of iterations, and it ends.
* `Cursor.compiles_safely`: no slice of the loops is a fault, and the texts of the segments are
  together no longer than the expression.
-/
import JsonSelect.Proofs.Path.Cursor

namespace JsonSelect

set_option autoImplicit false

open Utf8 (BadSlice sliceFrom size)

/-- The bytes of the texts of the segments of a path, added up. -/
def Path.displaySize : Path → Nat
  | [] => 0
  | segment :: path => size segment.display + displaySize path

theorem Path.displaySize_concat (path : Path) (segment : Segment) :
    displaySize (path ++ [segment]) = displaySize path + size segment.display := by
  induction path with
  | nil => exact Nat.add_comm _ _
  | cons first path ih =>
      rw [List.cons_append, displaySize, displaySize, ih]
      omega

/-! ## Iterations -/

/-- Where a loop stands in an expression, and the segments that it has found. -/
structure Cursor where
  offset : Nat
  found : Path

namespace Cursor

/-- What an iteration leads to. -/
inductive Step where
  | goOn (next : Cursor)
  | stop (result : Except UnexpectedChar Path)

/-- Where a loop begins; the strict one is behind a dollar sign, if there is one. -/
def start (strict : Bool) (text : List Char) : Except BadSlice Cursor := do
  if strict then
    if (← char? text 0) = some '$' then return ⟨'$'.utf8Size, []⟩ else return ⟨0, []⟩
  else return ⟨0, []⟩

def stepLenient (text : List Char) (s : Cursor) : Except BadSlice Step := do
  if size text ≤ s.offset then return .stop (.ok s.found)
  else
    match ← nextSegment text s.offset with
    | some found => return .goOn ⟨found.2, s.found ++ [found.1]⟩
    | none =>
        match ← char? text s.offset with
        | some c => return .goOn ⟨s.offset + c.utf8Size, s.found⟩
        | none => return .goOn s

def stepStrict (text : List Char) (s : Cursor) : Except BadSlice Step := do
  match ← char? text s.offset with
  | none => return .stop (.ok s.found)
  | some c =>
      match ← nextSegment text s.offset with
      | some found => return .goOn ⟨found.2, s.found ++ [found.1]⟩
      | none => return .stop (.error ⟨s.offset, c⟩)

def step (strict : Bool) (text : List Char) (s : Cursor) : Except BadSlice Step :=
  if strict then stepStrict text s else stepLenient text s

/-- The cursor after so many iterations. -/
inductive Reaches (strict : Bool) (text : List Char) : Nat → Cursor → Prop
  | start {s : Cursor} (starts : start strict text = .ok s) : Reaches strict text 0 s
  | step {n : Nat} {s next : Cursor} (reached : Reaches strict text n s)
      (moves : step strict text s = .ok (.goOn next)) : Reaches strict text (n + 1) next

/-! ## What an iteration does -/

variable {strict : Bool} {text rest left : List Char} {s : Cursor} {segment : Segment} {c : Char}

theorem inside_of_slice {i : Nat} (here : sliceFrom text i = .ok (c :: left)) :
    ¬ size text ≤ i := by
  have wide := c.utf8Size_pos
  rw [Utf8.size_of_sliceFrom here, Utf8.size_cons]
  omega

theorem step_of_end (here : sliceFrom text s.offset = .ok []) :
    step strict text s = .ok (.stop (.ok s.found)) := by
  cases strict with
  | true =>
      show stepStrict text s = _
      rw [stepStrict, char?_of_slice here]
      rfl
  | false =>
      have whole : size text ≤ s.offset := Nat.le_of_eq (Utf8.size_of_sliceFrom here)
      show stepLenient text s = _
      rw [stepLenient, if_pos whole]
      rfl

theorem step_of_some (here : sliceFrom text s.offset = .ok (c :: rest))
    (found : Segment.scan? (c :: rest) = some (segment, left)) :
    step strict text s =
      .ok (.goOn ⟨s.offset + size segment.display, s.found ++ [segment]⟩) := by
  have segments := nextSegment_of_slice here
  rw [found] at segments
  cases strict with
  | true =>
      show stepStrict text s = _
      rw [stepStrict, char?_of_slice here, ok_bind]
      show (nextSegment text s.offset >>= _) = _
      rw [segments]
      rfl
  | false =>
      show stepLenient text s = _
      rw [stepLenient, if_neg (inside_of_slice here), segments]
      rfl

theorem step_of_none (here : sliceFrom text s.offset = .ok (c :: rest))
    (nothing : Segment.scan? (c :: rest) = none) :
    step strict text s =
      .ok (if strict then .stop (.error ⟨s.offset, c⟩)
        else .goOn ⟨s.offset + c.utf8Size, s.found⟩) := by
  have segments := nextSegment_of_slice here
  rw [nothing] at segments
  cases strict with
  | true =>
      show stepStrict text s = _
      rw [stepStrict, char?_of_slice here, ok_bind]
      show (nextSegment text s.offset >>= _) = _
      rw [segments]
      rfl
  | false =>
      show stepLenient text s = _
      rw [stepLenient, if_neg (inside_of_slice here), segments]
      show (char? text s.offset >>= _) = _
      rw [char?_of_slice here]
      rfl

/-! ## The rest of an expression -/

/-- What is compiled of the rest of an expression. -/
def compileRest (strict : Bool) (text rest : List Char) : Except UnexpectedChar Path :=
  if strict then
    (Path.scanStrict rest).mapError fun stop => ⟨size text - size (stop.1 :: stop.2), stop.1⟩
  else .ok (Path.scan rest)

theorem compileRest_nil : compileRest strict text [] = .ok [] := by
  rw [compileRest, Path.scanStrict_nil, Path.scan]
  cases strict <;> rfl

theorem compileRest_of_some (found : Segment.scan? rest = some (segment, left)) :
    compileRest strict text rest = (compileRest strict text left).map (segment :: ·) := by
  rw [compileRest, compileRest, Path.scanStrict_of_some found, Path.scan_of_some found]
  cases strict with
  | true => cases Path.scanStrict left <;> rfl
  | false => rfl

theorem compileRest_of_none (nothing : Segment.scan? (c :: rest) = none) :
    compileRest strict text (c :: rest) =
      if strict then .error ⟨size text - size (c :: rest), c⟩
      else compileRest strict text rest := by
  rw [compileRest, compileRest, Path.scanStrict_cons_of_none nothing,
    Path.scan_cons_of_none nothing]
  cases strict <;> rfl

/-- Strict compilation begins behind a dollar sign, if there is one. -/
theorem compileAs_eq (strict : Bool) (expression : String) :
    Path.compileAs strict expression = compileRest strict expression.toList
      (if strict then Path.afterDollar expression.toList else expression.toList) := by
  cases strict <;> rfl

/-! ## What an iteration keeps -/

/-- The cursor is in front of `rest`, and the expression compiles to what is found and to the
segments of the rest. -/
structure Follows (strict : Bool) (expression : String) (s : Cursor) (rest : List Char) :
    Prop where
  slice : sliceFrom expression.toList s.offset = .ok rest
  result : Path.compileAs strict expression =
    (compileRest strict expression.toList rest).map (s.found ++ ·)
  shown : s.found.displaySize ≤ s.offset

variable {expression : String}

/-- A loop that has found nothing yet. -/
theorem follows_of_rest {i : Nat} (slice : sliceFrom expression.toList i = .ok rest)
    (same : Path.compileAs strict expression = compileRest strict expression.toList rest) :
    Follows strict expression ⟨i, []⟩ rest where
  slice := slice
  result := by
    rw [same]
    cases compileRest strict expression.toList rest <;> rfl
  shown := Nat.zero_le i

theorem exists_start (strict : Bool) (expression : String) :
    ∃ s rest, start strict expression.toList = .ok s ∧ Follows strict expression s rest := by
  have slice := Utf8.sliceFrom_zero expression.toList
  have same := compileAs_eq strict expression
  cases strict with
  | false => exact ⟨⟨0, []⟩, expression.toList, rfl, follows_of_rest slice same⟩
  | true =>
      have starts : start true expression.toList =
          .ok (if expression.toList.head? = some '$' then ⟨'$'.utf8Size, []⟩ else ⟨0, []⟩) := by
        rw [start, if_pos rfl, char?_of_slice slice, ok_bind]
        split <;> rfl
      by_cases dollar : expression.toList.head? = some '$'
      · obtain ⟨t, text⟩ := List.head?_eq_some_iff.1 dollar
        have behind : sliceFrom expression.toList 1 = .ok t := by
          rw [text] at slice ⊢
          exact Utf8.sliceFrom_add ['$'] slice
        rw [if_pos dollar] at starts
        rw [if_pos rfl, text] at same
        refine ⟨_, t, starts, follows_of_rest behind ?_⟩
        rw [text]
        exact same
      · have noDollar : ∀ t, expression.toList ≠ '$' :: t := by
          intro t text
          rw [text] at dollar
          exact dollar rfl
        rw [if_neg dollar] at starts
        rw [if_pos rfl, Path.afterDollar_of_ne noDollar] at same
        exact ⟨_, expression.toList, starts, follows_of_rest slice same⟩

/-- The invariant behind a segment. -/
theorem Follows.behind (follows : Follows strict expression s (c :: rest))
    (found : Segment.scan? (c :: rest) = some (segment, left)) :
    Follows strict expression ⟨s.offset + size segment.display, s.found ++ [segment]⟩ left where
  slice := by
    have slice := follows.slice
    rw [← Segment.display_append_of_scan? found] at slice
    exact Utf8.sliceFrom_add _ slice
  result := by
    rw [follows.result, compileRest_of_some found]
    cases compileRest strict expression.toList left with
    | error stop => rfl
    | ok path =>
        show Except.ok (s.found ++ segment :: path) = Except.ok (s.found ++ [segment] ++ path)
        rw [List.append_assoc]
        rfl
  shown := by
    have shown := follows.shown
    show Path.displaySize (s.found ++ [segment]) ≤ s.offset + size segment.display
    rw [Path.displaySize_concat]
    omega

/-- The invariant behind a character that is dropped. -/
theorem Follows.dropped (follows : Follows false expression s (c :: rest))
    (nothing : Segment.scan? (c :: rest) = none) :
    Follows false expression ⟨s.offset + c.utf8Size, s.found⟩ rest where
  slice := by
    have slice := Utf8.sliceFrom_add [c] follows.slice
    rwa [Utf8.size_cons, Utf8.size_nil, Nat.add_zero] at slice
  result := by
    rw [follows.result, compileRest_of_none nothing]
    rfl
  shown := Nat.le_add_right_of_le follows.shown

/-- **One iteration** stops with what the expression compiles to, which is what was found unless
it is refused, or it moves the cursor on, to another place between two characters. -/
theorem Follows.step (follows : Follows strict expression s rest) :
    (step strict expression.toList s = .ok (.stop (Path.compileAs strict expression)) ∧
        ∀ path, Path.compileAs strict expression = .ok path → path = s.found) ∨
      ∃ next left, step strict expression.toList s = .ok (.goOn next) ∧
        s.offset < next.offset ∧ Follows strict expression next left := by
  have result := follows.result
  cases rest with
  | nil =>
      have whole : Path.compileAs strict expression = .ok s.found := by
        rw [result, compileRest_nil]
        show Except.ok (s.found ++ []) = _
        rw [List.append_nil]
      rw [step_of_end follows.slice, whole]
      refine .inl ⟨rfl, ?_⟩
      intro path same
      exact (Except.ok.inj same).symm
  | cons c rest =>
      cases found : Segment.scan? (c :: rest) with
      | some way =>
          obtain ⟨segment, left⟩ := way
          refine .inr ⟨_, left, step_of_some follows.slice found, ?_, follows.behind found⟩
          exact Nat.lt_add_of_pos_right (Segment.size_display_pos segment)
      | none =>
          have moves := @step_of_none strict _ _ _ _ follows.slice found
          cases strict with
          | false =>
              refine .inr ⟨_, rest, moves, ?_, follows.dropped found⟩
              exact Nat.lt_add_of_pos_right c.utf8Size_pos
          | true =>
              have here : size expression.toList - size (c :: rest) = s.offset := by
                rw [Utf8.size_of_sliceFrom follows.slice, Nat.add_sub_cancel]
              have refused : Path.compileAs true expression = .error ⟨s.offset, c⟩ := by
                rw [result, compileRest_of_none found, if_pos rfl, here]
                rfl
              rw [moves, refused]
              refine .inl ⟨rfl, ?_⟩
              intro path same
              cases same

/-! ## Runs -/

/-- A run keeps to the expression, and it is no longer than what it has read. -/
theorem Reaches.follows {n : Nat} (reached : Reaches strict expression.toList n s) :
    n ≤ s.offset ∧ ∃ rest, Follows strict expression s rest := by
  induction reached with
  | start starts =>
      obtain ⟨s', rest, starts', follows⟩ := exists_start strict expression
      rw [starts] at starts'
      cases starts'
      exact ⟨Nat.zero_le _, rest, follows⟩
  | step reached moves ih =>
      obtain ⟨count, rest, follows⟩ := ih
      rcases follows.step with ⟨stops, -⟩ | ⟨next, left, goesOn, further, follows⟩
      · rw [moves] at stops
        cases stops
      · rw [moves] at goesOn
        cases goesOn
        exact ⟨by omega, left, follows⟩

/-- A run comes to an end, since the cursor moves on and stays inside of the expression. -/
theorem exists_stop {n : Nat} (reached : Reaches strict expression.toList n s) :
    ∃ m t, Reaches strict expression.toList m t ∧
      step strict expression.toList t = .ok (.stop (Path.compileAs strict expression)) ∧
      ∀ path, Path.compileAs strict expression = .ok path → path = t.found := by
  -- the induction is on the bytes that are left, of which each iteration takes some
  induction room : size expression.toList - s.offset using Nat.strongRecOn generalizing n s with
  | ind room' ih =>
      obtain ⟨-, rest, follows⟩ := reached.follows
      rcases follows.step with ⟨stops, whole⟩ | ⟨next, left, goesOn, further, follows⟩
      · exact ⟨n, s, reached, stops, whole⟩
      · have inside := Utf8.size_of_sliceFrom follows.slice
        exact ih (size expression.toList - next.offset) (by omega) (reached.step goesOn) rfl

/-- **The loops are safe and end.**  Wherever a loop gets to, the cursor is at a valid position of
the expression, which has as many bytes behind it as iterations and as the texts of the segments
that are found.  None of the slices of an iteration is a fault, and it moves the cursor on or
stops with what the expression compiles to, which happens in the end. -/
theorem compiles_safely (strict : Bool) (expression : String) :
    (∃ s, start strict expression.toList = .ok s) ∧
    (∀ n s, Reaches strict expression.toList n s →
      s.offset ≤ expression.utf8ByteSize ∧ (⟨s.offset⟩ : String.Pos.Raw).IsValid expression ∧
      n ≤ s.offset ∧ s.found.displaySize ≤ s.offset ∧
      (step strict expression.toList s = .ok (.stop (Path.compileAs strict expression)) ∨
        ∃ next, step strict expression.toList s = .ok (.goOn next) ∧ s.offset < next.offset)) ∧
    (∃ n s, Reaches strict expression.toList n s ∧
      step strict expression.toList s = .ok (.stop (Path.compileAs strict expression))) ∧
    ∀ path, Path.compileAs strict expression = .ok path →
      path.displaySize ≤ expression.utf8ByteSize := by
  obtain ⟨s, rest, starts, follows⟩ := exists_start strict expression
  obtain ⟨m, t, ended, stops, whole⟩ := exists_stop (.start starts)
  have inside {n : Nat} {s : Cursor} (reached : Reaches strict expression.toList n s) :
      s.offset ≤ expression.utf8ByteSize := by
    obtain ⟨-, rest, follows⟩ := reached.follows
    have bytes := Utf8.size_of_sliceFrom follows.slice
    rw [Utf8.size_toList] at bytes
    omega
  refine ⟨⟨s, starts⟩, ?_, ⟨m, t, ended, stops⟩, ?_⟩
  · intro n s reached
    obtain ⟨count, rest, follows⟩ := reached.follows
    refine ⟨inside reached, Utf8.isValid_of_sliceFrom follows.slice, count, follows.shown, ?_⟩
    rcases follows.step with ⟨stops, -⟩ | ⟨next, left, goesOn, further, -⟩
    · exact .inl stops
    · exact .inr ⟨next, goesOn, further⟩
  · intro path compiled
    obtain ⟨-, rest, follows⟩ := ended.follows
    rw [whole path compiled]
    exact Nat.le_trans follows.shown (inside ended)

end Cursor

end JsonSelect
