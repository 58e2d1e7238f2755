/-
# JsonSelect.Proofs.Path.Brackets -- brackets that are fused on a line

A bracket is closed by the last closing one on its line, so whatever is closed before that
becomes part of the text between the brackets, and no such text selects anything.

* `Path.scan_eq_flatMap_lines`: an expression is scanned line by line.
* `Path.exists_index_of_twiceClosed`: a line in which a bracket is opened and two are closed
  behind it gives a segment with a closing bracket in its text.
* `Positions.bracket_not_mem_of_parse?`: such a text is of no form.
* `Path.index_once_per_line`: so each line gives one segment with brackets at most, and a
  second level of brackets on a line leaves the expression without matches.
-/
import JsonSelect.Proofs.Path.Fusion
import JsonSelect.Proofs.Path.Lines

namespace JsonSelect

set_option autoImplicit false

/-! ## Texts of positions -/

namespace Positions

theorem isDigit_of_natural? {text : List Char} {n : Nat} (read : natural? text = some n) :
    ∀ c ∈ text, c.isDigit = true := by
  unfold natural? at read
  split at read
  · rename_i digits
    exact List.all_eq_true.1 digits.2
  · cases read

theorem bracket_not_mem_of_natural? {text : List Char} {n : Nat}
    (read : natural? text = some n) : ']' ∉ text :=
  fun inside => absurd (isDigit_of_natural? read ']' inside) (by decide)

theorem bracket_not_mem_of_integer? {text : List Char} {i : Int}
    (read : integer? text = some i) : ']' ∉ text := by
  unfold integer? at read
  split at read
  · obtain ⟨_, read, -⟩ := Option.map_eq_some_iff.1 read
    obtain ⟨n, digits, -⟩ := Option.bind_eq_some_iff.1 read
    simp [bracket_not_mem_of_natural? digits]
  · obtain ⟨n, digits, -⟩ := Option.map_eq_some_iff.1 read
    simp [bracket_not_mem_of_natural? digits]
  · obtain ⟨n, digits, -⟩ := Option.map_eq_some_iff.1 read
    exact bracket_not_mem_of_natural? digits

theorem bracket_not_mem_of_number? {text : List Char} {i : Int}
    (read : number? text = some i) : ']' ∉ text :=
  bracket_not_mem_of_integer? (Option.filter_eq_some_iff.1 read).1

theorem bracket_not_mem_of_bound? {text : List Char} {bound : Option Int}
    (read : bound? text = some bound) : ']' ∉ text := by
  unfold bound? at read
  split at read
  · rename_i empty
    rw [empty]
    exact List.not_mem_nil
  · obtain ⟨i, number, -⟩ := Option.map_eq_some_iff.1 read
    exact bracket_not_mem_of_number? number

theorem append_of_aroundColon? {text left right : List Char}
    (around : aroundColon? text = some (left, right)) : left ++ ':' :: right = text := by
  unfold aroundColon? at around
  split at around
  · cases around
  · rename_i c rest found
    split at around <;> cases around
    have colon : c = ':' := by
      have stops := List.head?_dropWhile_not (· ≠ ':') text
      rw [found] at stops
      simpa using stops
    rw [colon] at found
    rw [← found, List.takeWhile_append_dropWhile]

/-- No form of a text has a closing bracket in it. -/
theorem bracket_not_mem_of_parse? {text : List Char} {positions : Positions}
    (read : parse? text = some positions) : ']' ∉ text := by
  unfold parse? at read
  split at read
  · rename_i star
    rw [star]
    decide
  · split at read
    · rename_i i number
      exact bracket_not_mem_of_number? number
    · obtain ⟨⟨left, right⟩, around, read⟩ := Option.bind_eq_some_iff.1 read
      obtain ⟨start, lower, read⟩ := Option.bind_eq_some_iff.1 read
      obtain ⟨stop, upper, -⟩ := Option.bind_eq_some_iff.1 read
      have before := bracket_not_mem_of_bound? lower
      have behind := bracket_not_mem_of_bound? upper
      rw [← append_of_aroundColon? around]
      simp [before, behind]

end Positions

theorem Segment.select_index_of_bracket {text : String} (inside : ']' ∈ text.toList) (v : Json) :
    (Segment.index text).select v = [] := by
  cases v with
  | array items =>
      simp only [select, Json.itemsAt, Positions.selectText]
      cases read : Positions.parse? text.toList with
      | none => rfl
      | some positions => exact absurd inside (Positions.bracket_not_mem_of_parse? read)
  | _ => rfl

namespace Path

/-- A segment that selects nothing anywhere leaves the path without matches. -/
theorem select_eq_nil_of_mem {path : Path} {segment : Segment} (member : segment ∈ path)
    (nothing : ∀ v, segment.select v = []) (root : Json) : path.select root = [] := by
  induction path generalizing root with
  | nil => cases member
  | cons first rest ih =>
      rw [select_cons]
      rcases List.mem_cons.1 member with rfl | later
      · rw [nothing, List.flatMap_nil]
      · exact List.flatMap_eq_nil_iff.2 fun v _ => ih later v

/-! ## Lines -/

/-- The lines of a text, which are what stands between its newlines. -/
def lines (s : List Char) : List (List Char) := s.splitOn '\n'

/-- What holds of single lines, and of a text with a further line in front, holds of every
text. -/
theorem induction_on_lines {P : List Char → Prop} (single : ∀ line, '\n' ∉ line → P line)
    (more : ∀ line rest, '\n' ∉ line → P rest → P (line ++ '\n' :: rest)) (s : List Char) :
    P s := by
  by_cases oneLine : '\n' ∈ s
  · obtain ⟨line, rest, split, first⟩ := List.eq_append_cons_of_mem oneLine
    have shorter : rest.length < s.length := by
      rw [split, List.length_append, List.length_cons]
      omega
    rw [split]
    exact more line rest first (induction_on_lines single more rest)
  · exact single s oneLine
termination_by s.length

theorem lines_of_oneLine {line : List Char} (oneLine : '\n' ∉ line) : lines line = [line] :=
  List.splitOn_eq_singleton oneLine

theorem lines_append_newline {line : List Char} (oneLine : '\n' ∉ line) (rest : List Char) :
    lines (line ++ '\n' :: rest) = line :: lines rest := by
  rw [lines, List.splitOn_append_cons_self, List.splitOn_eq_singleton oneLine]
  rfl

theorem newline_not_mem_of_mem_lines {s line : List Char} (member : line ∈ lines s) :
    '\n' ∉ line := by
  induction s using induction_on_lines with
  | single s oneLine =>
      rw [lines_of_oneLine oneLine] at member
      rwa [List.mem_singleton.1 member]
  | more first rest oneLine ih =>
      rw [lines_append_newline oneLine] at member
      rcases List.mem_cons.1 member with rfl | later
      · exact oneLine
      · exact ih later

/-- The segments of a text are those of its lines in order. -/
theorem scan_eq_flatMap_lines (s : List Char) : scan s = (lines s).flatMap scan := by
  induction s using induction_on_lines with
  | single s oneLine => rw [lines_of_oneLine oneLine, List.flatMap_singleton]
  | more line rest oneLine ih =>
      rw [lines_append_newline oneLine, scan_append_newline, List.flatMap_cons, ih]

/-! ## Brackets that are closed twice -/

/-- Some bracket is opened, and two or more are closed behind it. -/
def TwiceClosed (line : List Char) : Prop :=
  ∃ before after, line = before ++ '[' :: after ∧ 2 ≤ after.count ']'

theorem TwiceClosed.count_le {line : List Char} (twice : TwiceClosed line) :
    2 ≤ line.count ']' := by
  obtain ⟨before, after, rfl, closed⟩ := twice
  rw [List.count_append, List.count_cons_of_ne (by decide)]
  omega

/-- Characters that open no bracket can be left out. -/
theorem TwiceClosed.of_append {passed rest : List Char} (unopened : '[' ∉ passed)
    (twice : TwiceClosed (passed ++ rest)) : TwiceClosed rest := by
  obtain ⟨before, after, split, closed⟩ := twice
  induction passed generalizing before with
  | nil => exact ⟨before, after, split, closed⟩
  | cons c passed ih =>
      rw [List.mem_cons, not_or] at unopened
      cases before with
      | nil => exact absurd (List.cons.inj split).1.symm unopened.1
      | cons d before => exact ih unopened.2 before (List.cons.inj split).2

/-- What stands between a bracket and the last one that is closed has all others in it. -/
theorem bracket_mem_of_beforeLastBracket? {t text rest : List Char} (closed : 2 ≤ t.count ']')
    (oneLine : '\n' ∉ t) (found : Segment.beforeLastBracket? t = some (text, rest)) :
    ']' ∈ text := by
  have whole := Segment.append_of_beforeLastBracket? found
  have lineRest : '\n' ∉ rest := fun inside => oneLine (by rw [← whole]; simp [inside])
  have unclosed := (Segment.beforeLastBracket?_eq_none_iff lineRest).1
    (Segment.beforeLastBracket?_rest found)
  rw [← whole, List.count_append, List.count_cons_self, List.count_eq_zero.2 unclosed] at closed
  exact List.count_pos_iff.1 (by omega)

/-- Where a bracket is opened and two are closed behind it, a segment begins. -/
theorem scan?_of_closed {t : List Char} (closed : 2 ≤ t.count ']') (oneLine : '\n' ∉ t) :
    ∃ text rest, Segment.scan? ('[' :: t) = some (.index text, rest) ∧ ']' ∈ text.toList := by
  cases found : Segment.beforeLastBracket? t with
  | none =>
      have unclosed := (Segment.beforeLastBracket?_eq_none_iff oneLine).1 found
      rw [List.count_eq_zero.2 unclosed] at closed
      omega
  | some way =>
      obtain ⟨text, rest⟩ := way
      have inside := bracket_mem_of_beforeLastBracket? closed oneLine found
      have here := Segment.scan?_bracketed (List.ne_nil_of_mem inside)
        (Segment.newline_not_mem_of_beforeLastBracket? found)
        (Segment.beforeLastBracket?_rest found)
      rw [Segment.append_of_beforeLastBracket? found] at here
      exact ⟨_, rest, here, by rwa [String.toList_ofList]⟩

/-- Before the first bracket there are only names and dropped characters, so the scan gets
to it. -/
theorem exists_index_of_twiceClosed {line : List Char} (oneLine : '\n' ∉ line)
    (twice : TwiceClosed line) : ∃ text, .index text ∈ scan line ∧ ']' ∈ text.toList := by
  -- The rest of the line stays twice closed until the scan is at a bracket.
  fun_induction scan line with
  | case1 =>
      have := twice.count_le
      simp at this
  | case2 c s segment rest found shorter ih =>
      have whole := Segment.display_append_of_scan? found
      have lineRest : '\n' ∉ rest := fun inside => oneLine (by rw [← whole]; simp [inside])
      by_cases bracketed : segment.isIndex = true
      · obtain ⟨t, opens⟩ : ∃ t, c :: s = '[' :: t := by
          cases segment with
          | index text => exact ⟨_, whole.symm⟩
          | _ => cases bracketed
        have closed : 2 ≤ t.count ']' := by
          have := twice.count_le
          rwa [opens, List.count_cons_of_ne (by decide)] at this
        have line : '\n' ∉ t := fun inside => oneLine (by rw [opens]; simp [inside])
        obtain ⟨text, left, here, inside⟩ := scan?_of_closed closed line
        rw [opens, here] at found
        cases found
        exact ⟨text, List.mem_cons_self, inside⟩
      · -- A name has no bracket in it, so the opened one is behind it.
        have unopened : '[' ∉ segment.display :=
          Segment.not_mem_display_of_named (Segment.wellFormed_of_scan? found)
            (by simpa using bracketed) (by decide) (by decide)
        rw [← whole] at twice
        obtain ⟨text, later, inside⟩ := ih lineRest (twice.of_append unopened)
        exact ⟨text, List.mem_cons_of_mem _ later, inside⟩
  | case3 c s nothing ih =>
      have lineRest : '\n' ∉ s := fun inside => oneLine (List.mem_cons_of_mem _ inside)
      by_cases opens : c = '['
      · subst opens
        have closed : 2 ≤ s.count ']' := by
          have := twice.count_le
          rwa [List.count_cons_of_ne (by decide)] at this
        obtain ⟨text, left, here, -⟩ := scan?_of_closed closed lineRest
        rw [here] at nothing
        cases nothing
      · have unopened : '[' ∉ [c] := by simpa using Ne.symm opens
        exact ih lineRest (TwiceClosed.of_append unopened twice)

/-! ## Whole expressions -/

/-- **Brackets of one line are fused.**  A path has the segments of its lines in order, of
which each line gives one with brackets at most.  A line in which a bracket is opened and
two are closed behind it leaves every document without matches, whatever else is written. -/
theorem index_once_per_line (expression : String) :
    compile expression = (lines expression.toList).flatMap scan ∧
      (∀ line ∈ lines expression.toList, (scan line).countP Segment.isIndex ≤ 1) ∧
      ((∃ line ∈ lines expression.toList, TwiceClosed line) →
        ∀ doc : Document, doc.query expression = []) := by
  have perLine : compile expression = (lines expression.toList).flatMap scan :=
    scan_eq_flatMap_lines expression.toList
  refine ⟨perLine, fun line member => ?_, ?_⟩
  · exact countP_isIndex_scan_le_one (newline_not_mem_of_mem_lines member)
  · rintro ⟨line, member, twice⟩ doc
    obtain ⟨text, found, inside⟩ :=
      exists_index_of_twiceClosed (newline_not_mem_of_mem_lines member) twice
    have segment : .index text ∈ compile expression := by
      rw [perLine]
      exact List.mem_flatMap.2 ⟨line, member, found⟩
    exact select_eq_nil_of_mem segment (Segment.select_index_of_bracket inside) doc.root

end Path

namespace Example

/-- The second line goes two levels down, so the first one does not matter. -/
theorem two_levels_on_a_line :
    Path.TwiceClosed ".m[1][0].b".toList ∧
      ".m[1][0].b".toList ∈ Path.lines ".a\n.m[1][0].b".toList ∧
      ∀ doc : Document, doc.query ".a\n.m[1][0].b" = [] := by
  have twice : Path.TwiceClosed ".m[1][0].b".toList :=
    ⟨['.', 'm'], "1][0].b".toList, rfl, by decide⟩
  have line : ".m[1][0].b".toList ∈ Path.lines ".a\n.m[1][0].b".toList := by decide +kernel
  obtain ⟨-, -, nothing⟩ := Path.index_once_per_line ".a\n.m[1][0].b"
  exact ⟨twice, line, nothing ⟨_, line, twice⟩⟩

end Example

end JsonSelect
