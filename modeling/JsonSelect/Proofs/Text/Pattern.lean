/-
# JsonSelect.Proofs.Text.Pattern -- patterns of text and how they split a text

A pattern is tried by backtracking: `Pattern.ways` lists all ways to match the start of
a text, the preferred ones first, and `Pattern.match?` is the first of them.  Choices are
tried in order and repetitions take as much as they can.

* `Pattern.Splits` holds of the way in which a pattern splits a text into gaps and
  matches: no match begins inside a gap, and each match is the one that the pattern
  takes where it begins.
* `splits_unique`: there is no other such way.
-/
import JsonSelect.Text.Utf8

namespace JsonSelect

set_option autoImplicit false

inductive Pattern where
  /-- A character that passes a test. -/
  | one (test : Char → Bool)
  /-- One or more characters that pass a test, as many as possible. -/
  | many (test : Char → Bool)
  | seq (first second : Pattern)
  /-- The second pattern counts where the first one fails. -/
  | alt (first second : Pattern)

namespace Pattern

/-- A character. -/
def char (c : Char) : Pattern := .one (· == c)

/-! ## Matching at the start of a text -/

/-- The nonempty runs that a text begins with and what follows them, longer ones first. -/
def runs (test : Char → Bool) : List Char → List (List Char × List Char)
  | [] => []
  | c :: s =>
      if test c then (runs test s).map (fun (run, rest) => (c :: run, rest)) ++ [([c], s)] else []

/-- The ways to match the start of a text, with what follows, in order of preference. -/
def ways : Pattern → List Char → List (List Char × List Char)
  | one _, [] => []
  | one test, c :: s => if test c then [([c], s)] else []
  | many test, s => runs test s
  | seq p q, s =>
      (p.ways s).flatMap fun (m, s) => (q.ways s).map fun (n, rest) => (m ++ n, rest)
  | alt p q, s => p.ways s ++ q.ways s

/-- The match at the start of a text, and what follows it. -/
def match? (p : Pattern) (s : List Char) : Option (List Char × List Char) := (p.ways s).head?

theorem append_of_mem_runs {test : Char → Bool} {s m rest : List Char}
    (way : (m, rest) ∈ runs test s) : m ≠ [] ∧ m ++ rest = s := by
  induction s generalizing m with
  | nil => cases way
  | cons c s ih =>
      simp only [runs] at way
      split at way
      · rcases List.mem_append.1 way with longer | single
        · obtain ⟨⟨run, left⟩, shorter, same⟩ := List.mem_map.1 longer
          cases same
          exact ⟨List.cons_ne_nil _ _, by rw [List.cons_append, (ih shorter).2]⟩
        · cases List.mem_singleton.1 single
          exact ⟨List.cons_ne_nil _ _, rfl⟩
      · cases way

/-- A match is a nonempty beginning of the text. -/
theorem append_of_mem_ways {p : Pattern} {s m rest : List Char}
    (way : (m, rest) ∈ p.ways s) : m ≠ [] ∧ m ++ rest = s := by
  induction p generalizing s m rest with
  | one test =>
      cases s with
      | nil => cases way
      | cons c s =>
          simp only [ways] at way
          split at way
          · cases List.mem_singleton.1 way
            exact ⟨List.cons_ne_nil _ _, rfl⟩
          · cases way
  | many test => exact append_of_mem_runs way
  | seq p q ihp ihq =>
      obtain ⟨⟨m, t⟩, first, way⟩ := List.mem_flatMap.1 way
      obtain ⟨⟨n, left⟩, second, same⟩ := List.mem_map.1 way
      cases same
      obtain ⟨nonempty, here⟩ := ihp first
      obtain ⟨-, there⟩ := ihq second
      refine ⟨fun empty => nonempty (List.append_eq_nil_iff.1 empty).1, ?_⟩
      rw [List.append_assoc, there, here]
  | alt p q ihp ihq =>
      rcases List.mem_append.1 way with first | second
      · exact ihp first
      · exact ihq second

theorem append_of_match? {p : Pattern} {s m rest : List Char}
    (found : p.match? s = some (m, rest)) : m ≠ [] ∧ m ++ rest = s :=
  append_of_mem_ways (List.mem_of_head? found)

@[simp] theorem match?_nil (p : Pattern) : p.match? [] = none := by
  cases found : p.match? [] with
  | none => rfl
  | some way =>
      obtain ⟨nonempty, whole⟩ := append_of_match? found
      exact absurd (List.append_eq_nil_iff.1 whole).1 nonempty

/-! ## How the parts of a pattern match -/

theorem match?_alt (p q : Pattern) (s : List Char) :
    (p.alt q).match? s = (p.match? s).or (q.match? s) := List.head?_append

theorem match?_seq_char_cons (c d : Char) (q : Pattern) (s : List Char) :
    ((char c).seq q).match? (d :: s) =
      if d = c then (q.match? s).map (fun (m, rest) => (c :: m, rest)) else none := by
  simp only [match?, char, ways, beq_iff_eq]
  split
  · rename_i same
    simp [same]
  · rfl

theorem match?_char_cons (c d : Char) (s : List Char) :
    (char c).match? (d :: s) = if d = c then some ([d], s) else none := by
  by_cases same : d = c <;> simp [match?, char, ways, same]

/-- A run goes on as long as what follows can still be matched, and ends there. -/
theorem match?_seq_many_cons (test : Char → Bool) (q : Pattern) (c : Char) (s : List Char) :
    ((many test).seq q).match? (c :: s) =
      if test c then
        ((((many test).seq q).match? s).or (q.match? s)).map fun (m, rest) => (c :: m, rest)
      else none := by
  simp only [match?, ways, runs]
  split
  · have extend : ∀ way : List Char × List Char,
        (q.ways way.2).map (fun (n, rest) => (c :: way.1 ++ n, rest)) =
          ((q.ways way.2).map fun (n, rest) => (way.1 ++ n, rest)).map
            fun (m, rest) => (c :: m, rest) := by
      intro way
      rw [List.map_map]
      rfl
    simp only [List.flatMap_append, List.flatMap_map, List.flatMap_singleton, extend,
      ← List.map_flatMap, List.head?_append, List.head?_map, Option.map_or]
    simp
  · rfl

/-- The longest run is preferred. -/
theorem match?_many (test : Char → Bool) (s : List Char) :
    (many test).match? s =
      if s.takeWhile test = [] then none else some (s.takeWhile test, s.dropWhile test) := by
  induction s with
  | nil => rfl
  | cons c s ih =>
      simp only [match?, ways, runs] at ih ⊢
      by_cases passes : test c = true
      · rw [if_pos passes, List.head?_append, List.head?_map, ih, List.takeWhile_cons_of_pos passes,
          List.dropWhile_cons_of_pos passes, if_neg (List.cons_ne_nil _ _)]
        split
        · rename_i stops
          have := List.takeWhile_append_dropWhile (p := test) (l := s)
          rw [stops] at this ⊢
          simp [show s.dropWhile test = s from this]
        · rfl
      · rw [if_neg passes, List.takeWhile_cons_of_neg passes]
        rfl

theorem test_of_match?_many {test : Char → Bool} {s m rest : List Char}
    (found : (many test).match? s = some (m, rest)) : ∀ c ∈ m, test c = true := by
  rw [match?_many] at found
  split at found
  · cases found
  · cases found
    exact List.all_eq_true.1 List.all_takeWhile

/-! ## Gaps and matches -/

/-- No match begins inside the gap, what follows it being `rest`. -/
def NowhereIn (p : Pattern) (gap rest : List Char) : Prop :=
  ∀ passed left, gap = passed ++ left → left ≠ [] → p.match? (left ++ rest) = none

theorem nowhereIn_nil (p : Pattern) (rest : List Char) : p.NowhereIn [] rest := by
  intro passed left empty nonempty
  exact absurd (List.append_eq_nil_iff.1 empty.symm).2 nonempty

theorem nowhereIn_cons_iff {p : Pattern} {c : Char} {gap rest : List Char} :
    p.NowhereIn (c :: gap) rest ↔
      p.match? (c :: (gap ++ rest)) = none ∧ p.NowhereIn gap rest := by
  constructor
  · intro nowhere
    refine ⟨nowhere [] (c :: gap) rfl (List.cons_ne_nil _ _), fun passed left split nonempty => ?_⟩
    exact nowhere (c :: passed) left (by rw [split, List.cons_append]) nonempty
  · rintro ⟨here, nowhere⟩ passed left split nonempty
    cases passed with
    | nil =>
        obtain rfl : c :: gap = left := split
        exact here
    | cons d passed =>
        exact nowhere passed left (List.cons.inj split).2 nonempty

/-- Gaps with the matches behind them, and a last gap. -/
structure Split where
  pieces : List (List Char × List Char)
  last : List Char

namespace Split

/-- The matches in order. -/
def found (x : Split) : List (List Char) := x.pieces.map Prod.snd

/-- With a match in front. -/
def behind (m : List Char) (x : Split) : Split := ⟨([], m) :: x.pieces, x.last⟩

/-- With a character more at the start of the first gap. -/
def widen (c : Char) : Split → Split
  | ⟨[], last⟩ => ⟨[], c :: last⟩
  | ⟨(gap, m) :: pieces, last⟩ => ⟨(c :: gap, m) :: pieces, last⟩

@[simp] theorem found_behind (m : List Char) (x : Split) : (x.behind m).found = m :: x.found := rfl

@[simp] theorem found_widen (c : Char) (x : Split) : (x.widen c).found = x.found := by
  obtain ⟨pieces, last⟩ := x
  cases pieces <;> rfl

end Split

/-- Characters with the number of bytes before each of them, the first one at `start`. -/
def offsets : Nat → List Char → List (Nat × Char)
  | _, [] => []
  | start, c :: s => (start, c) :: offsets (start + Utf8.size [c]) s

namespace Split

def droppedIn (last : List Char) : Nat → List (List Char × List Char) → List (Nat × Char)
  | start, [] => offsets start last
  | start, (gap, m) :: pieces =>
      offsets start gap ++ droppedIn last (start + Utf8.size gap + Utf8.size m) pieces

/-- The characters in the gaps with the number of bytes before each of them, the text
beginning at `start`. -/
def dropped (start : Nat) (x : Split) : List (Nat × Char) := droppedIn x.last start x.pieces

@[simp] theorem dropped_behind (start : Nat) (m : List Char) (x : Split) :
    (x.behind m).dropped start = x.dropped (start + Utf8.size m) := rfl

@[simp] theorem dropped_widen (start : Nat) (c : Char) (x : Split) :
    (x.widen c).dropped start = (start, c) :: x.dropped (start + Utf8.size [c]) := by
  obtain ⟨pieces, last⟩ := x
  cases pieces with
  | nil => rfl
  | cons piece pieces =>
      obtain ⟨gap, m⟩ := piece
      have whole : Utf8.size (c :: gap) = Utf8.size [c] + Utf8.size gap := Utf8.size_append [c] gap
      simp only [widen, dropped, droppedIn, offsets, List.cons_append, whole, Nat.add_assoc]

end Split

theorem le_of_mem_offsets {start : Nat} {s : List Char} {d : Nat × Char}
    (member : d ∈ offsets start s) : start ≤ d.1 := by
  induction s generalizing start with
  | nil => cases member
  | cons c s ih =>
      rcases List.mem_cons.1 member with rfl | later
      · exact Nat.le_refl start
      · have := ih later
        omega

theorem Split.le_of_mem_dropped {start : Nat} {x : Split} {d : Nat × Char}
    (member : d ∈ x.dropped start) : start ≤ d.1 := by
  obtain ⟨pieces, last⟩ := x
  simp only [dropped] at member
  induction pieces generalizing start with
  | nil => exact le_of_mem_offsets member
  | cons piece pieces ih =>
      rcases List.mem_append.1 member with here | later
      · exact le_of_mem_offsets here
      · have := ih later
        omega

/-- The text consists of the gaps and matches, no match begins inside a gap, and each
match is the one that the pattern takes in its place. -/
inductive Splits (p : Pattern) : List Char → Split → Prop
  | last {gap : List Char} (nowhere : p.NowhereIn gap []) : Splits p gap ⟨[], gap⟩
  | piece {gap m s : List Char} {x : Split} (nowhere : p.NowhereIn gap (m ++ s))
      (found : p.match? (m ++ s) = some (m, s)) (others : Splits p s x) :
      Splits p (gap ++ (m ++ s)) ⟨(gap, m) :: x.pieces, x.last⟩

theorem splits_nil_iff {p : Pattern} {x : Split} : p.Splits [] x ↔ x = ⟨[], []⟩ := by
  constructor
  · intro split
    generalize empty : ([] : List Char) = s at split
    cases split with
    | last => rw [← empty]
    | @piece gap m s x nowhere found others =>
        have nothing := (List.append_eq_nil_iff.1 empty.symm).2
        rw [nothing, match?_nil] at found
        cases found
  · rintro rfl
    exact .last (p.nowhereIn_nil [])

/-- Where a match begins, the split begins with it. -/
theorem splits_iff_of_match {p : Pattern} {s m rest : List Char} {x : Split}
    (found : p.match? s = some (m, rest)) :
    p.Splits s x ↔ ∃ y, p.Splits rest y ∧ x = y.behind m := by
  constructor
  · intro split
    cases split with
    | last nowhere =>
        have nonempty : s ≠ [] := by rintro rfl; simp at found
        have := nowhere [] s rfl nonempty
        rw [List.append_nil, found] at this
        cases this
    | @piece gap n t y nowhere found' others =>
        cases gap with
        | nil =>
            rw [List.nil_append, found'] at found
            cases found
            exact ⟨y, others, rfl⟩
        | cons c gap =>
            have := nowhere [] (c :: gap) rfl (List.cons_ne_nil _ _)
            rw [found] at this
            cases this
  · rintro ⟨y, split, rfl⟩
    obtain ⟨-, rfl⟩ := append_of_match? found
    exact .piece (p.nowhereIn_nil _) found split

/-- Where no match begins, the first gap takes a character. -/
theorem splits_iff_of_no_match {p : Pattern} {c : Char} {s : List Char} {x : Split}
    (nothing : p.match? (c :: s) = none) :
    p.Splits (c :: s) x ↔ ∃ y, p.Splits s y ∧ x = y.widen c := by
  constructor
  · intro split
    generalize whole : c :: s = t at split
    cases split with
    | last nowhere =>
        rw [← whole] at nowhere ⊢
        exact ⟨⟨[], s⟩, .last (nowhereIn_cons_iff.1 nowhere).2, rfl⟩
    | @piece gap m t y nowhere found others =>
        cases gap with
        | nil =>
            rw [List.nil_append] at whole
            rw [← whole, nothing] at found
            cases found
        | cons d gap =>
            obtain ⟨rfl, rfl⟩ := List.cons.inj whole
            exact ⟨⟨(gap, m) :: y.pieces, y.last⟩,
              .piece (nowhereIn_cons_iff.1 nowhere).2 found others, rfl⟩
  · rintro ⟨y, split, rfl⟩
    cases split with
    | last nowhere =>
        refine .last (nowhereIn_cons_iff.2 ⟨?_, nowhere⟩)
        rwa [List.append_nil]
    | piece nowhere found others =>
        exact .piece (nowhereIn_cons_iff.2 ⟨nothing, nowhere⟩) found others

/-- A pattern splits a text in one way only. -/
theorem splits_unique {p : Pattern} (s : List Char) {x y : Split} (first : p.Splits s x)
    (second : p.Splits s y) : x = y := by
  cases s with
  | nil => rw [splits_nil_iff.1 first, splits_nil_iff.1 second]
  | cons c s =>
      cases found : p.match? (c :: s) with
      | none =>
          obtain ⟨x', splitX, rfl⟩ := (splits_iff_of_no_match found).1 first
          obtain ⟨y', splitY, rfl⟩ := (splits_iff_of_no_match found).1 second
          rw [splits_unique s splitX splitY]
      | some way =>
          obtain ⟨m, rest⟩ := way
          obtain ⟨nonempty, whole⟩ := append_of_match? found
          have shorter : rest.length < (c :: s).length := by
            have := List.length_pos_iff.2 nonempty
            rw [← whole, List.length_append]
            omega
          obtain ⟨x', splitX, rfl⟩ := (splits_iff_of_match found).1 first
          obtain ⟨y', splitY, rfl⟩ := (splits_iff_of_match found).1 second
          rw [splits_unique rest splitX splitY]
termination_by s.length

end Pattern

end JsonSelect
