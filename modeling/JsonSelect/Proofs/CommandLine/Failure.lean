/-
# JsonSelect.Proofs.CommandLine.Failure -- when a command fails, and why

A query reads its source, decodes it and compiles its path, in this order, and fails with the
first of the three that fails.  To explain a path it only has to compile.

* `Arguments.FailsWith` lists the failures, each with what went well before it.
* `Arguments.run_eq_error_iff`: a command fails in just these ways.
* `Arguments.fails_in_order`: so an explanation depends on no source, and how matches are
  shown makes no difference to a failure.
-/
import JsonSelect.Proofs.CommandLine.Explanation
import JsonSelect.Proofs.Document.Refusal

namespace JsonSelect

set_option autoImplicit false

theorem Path.compileAs_eq_error_iff {strict : Bool} {expression : String} {e : UnexpectedChar} :
    compileAs strict expression = .error e ↔
      strict = true ∧ compileStrict expression = .error e := by
  cases strict with
  | false => exact ⟨nofun, fun refused => nomatch refused.1⟩
  | true => exact ⟨fun refused => ⟨rfl, refused⟩, And.right⟩

namespace Arguments

variable {a : Arguments} {read : Source → Except SourceError (List UInt8)} {e : RunError}

/-- Strictness is asked for, and this is why the path does not compile strictly. -/
def Refuses (a : Arguments) (c : UnexpectedChar) : Prop :=
  a.strict = true ∧ Path.compileStrict a.path = .error c

/-- The failures of a command, each with the steps before it, which succeed. -/
inductive FailsWith (a : Arguments) (read : Source → Except SourceError (List UInt8)) :
    RunError → Prop
  | unexplained {c : UnexpectedChar} (explains : a.explain = true) (refuses : a.Refuses c) :
      FailsWith a read (.query (.unexpected c))
  | unread {e : SourceError} (selects : a.explain = false) (missing : read a.source = .error e) :
      FailsWith a read (.source e)
  | undecoded {input : List UInt8} {e : QueryError} (selects : a.explain = false)
      (sourced : read a.source = .ok input) (malformed : Document.decode input = .error e) :
      FailsWith a read (.query e)
  | uncompiled {input : List UInt8} {doc : Document} {c : UnexpectedChar}
      (selects : a.explain = false) (sourced : read a.source = .ok input)
      (decoded : Document.decode input = .ok doc) (refuses : a.Refuses c) :
      FailsWith a read (.query (.unexpected c))

/-! ## The two kinds of commands -/

theorem run_of_explains (explains : a.explain = true) :
    a.run read = a.explanation >>= fun shown => .ok (shown.render a.spacing) := by
  rw [run, if_pos explains]
  rfl

theorem run_of_selects (selects : a.explain = false) :
    a.run read = ((read a.source).mapError .source >>= a.selection) >>=
      fun shown => .ok (shown.render a.spacing) := by
  rw [run, if_neg (by rw [selects]; exact Bool.false_ne_true)]
  cases read a.source <;> rfl

theorem explanation_eq_error_iff :
    a.explanation = .error e ↔ ∃ c, a.Refuses c ∧ e = .query (.unexpected c) := by
  rw [explanation, mapError_eq_error_iff]
  simp only [map_eq_error_iff, Path.compileAs_eq_error_iff]
  exact exists_congr fun c => and_congr_right fun _ => eq_comm

/-- Decoding comes before compiling. -/
theorem selection_eq_error_iff {input : List UInt8} :
    a.selection input = .error e ↔
      (∃ e', Document.decode input = .error e' ∧ e = .query e') ∨
        ∃ doc c, Document.decode input = .ok doc ∧ a.Refuses c ∧
          e = .query (.unexpected c) := by
  have bound (doc : Document) (e' : QueryError) :
      ((doc.withStrict a.strict).tryQuery a.path).map
          (fun found => Json.array (a.refine found)) = .error e' ↔
        ∃ c, a.Refuses c ∧ e' = .unexpected c := by
    rw [map_eq_error_iff, Document.tryQuery_eq_error_iff]
    rfl
  rw [selection, mapError_eq_error_iff]
  constructor
  · rintro ⟨e', fails, rfl⟩
    rcases bind_eq_error_iff.1 fails with malformed | ⟨doc, decoded, refused⟩
    · exact .inl ⟨e', malformed, rfl⟩
    · obtain ⟨c, refuses, rfl⟩ := (bound doc e').1 refused
      exact .inr ⟨doc, c, decoded, refuses, rfl⟩
  · rintro (⟨e', malformed, rfl⟩ | ⟨doc, c, decoded, refuses, rfl⟩)
    · exact ⟨e', bind_eq_error_iff.2 (.inl malformed), rfl⟩
    · have refused := (bound doc _).2 ⟨c, refuses, rfl⟩
      exact ⟨_, bind_eq_error_iff.2 (.inr ⟨doc, decoded, refused⟩), rfl⟩

/-! ## Failures -/

/-- What is shown is always rendered. -/
theorem render_eq_error_iff {shown : Except RunError Json} {spacing : Spacing} :
    (shown >>= fun v => .ok (v.render spacing)) = .error e ↔ shown = .error e := by
  rw [bind_eq_error_iff]
  exact ⟨fun fails => fails.resolve_right nofun, .inl⟩

/-- A command fails with the first of its steps that fails. -/
theorem run_eq_error_iff : a.run read = .error e ↔ a.FailsWith read e := by
  cases explains : a.explain with
  | true =>
      rw [run_of_explains explains, render_eq_error_iff, explanation_eq_error_iff]
      constructor
      · rintro ⟨c, refuses, rfl⟩
        exact .unexplained explains refuses
      · intro fails
        cases fails with
        | unexplained _ refuses => exact ⟨_, refuses, rfl⟩
        | unread selects => cases explains.symm.trans selects
        | undecoded selects => cases explains.symm.trans selects
        | uncompiled selects => cases explains.symm.trans selects
  | false =>
      rw [run_of_selects explains, render_eq_error_iff, bind_eq_error_iff]
      simp only [mapError_eq_error_iff, mapError_eq_ok_iff, selection_eq_error_iff]
      constructor
      · rintro (⟨e', missing, rfl⟩ |
          ⟨input, sourced, ⟨e', malformed, rfl⟩ | ⟨doc, c, decoded, refuses, rfl⟩⟩)
        · exact .unread explains missing
        · exact .undecoded explains sourced malformed
        · exact .uncompiled explains sourced decoded refuses
      · intro fails
        cases fails with
        | unexplained explained => cases explains.symm.trans explained
        | unread _ missing => exact .inl ⟨_, missing, rfl⟩
        | undecoded _ sourced malformed => exact .inr ⟨_, sourced, .inl ⟨_, malformed, rfl⟩⟩
        | uncompiled _ sourced decoded refuses =>
            exact .inr ⟨_, sourced, .inr ⟨_, _, decoded, refuses, rfl⟩⟩

/-- A query fails if any one of its three steps would fail by itself. -/
theorem exists_failsWith_iff (selects : a.explain = false) :
    (∃ e, a.FailsWith read e) ↔
      (∃ e, read a.source = .error e) ∨
      (∃ input e, read a.source = .ok input ∧ Document.decode input = .error e) ∨
      ∃ c, a.Refuses c := by
  constructor
  · rintro ⟨e, fails⟩
    cases fails with
    | unexplained explains => cases explains.symm.trans selects
    | unread _ missing => exact .inl ⟨_, missing⟩
    | undecoded _ sourced malformed => exact .inr (.inl ⟨_, _, sourced, malformed⟩)
    | uncompiled _ _ _ refuses => exact .inr (.inr ⟨_, refuses⟩)
  · rintro (⟨e, missing⟩ | ⟨input, e, sourced, malformed⟩ | ⟨c, refuses⟩)
    · exact ⟨_, .unread selects missing⟩
    · exact ⟨_, .undecoded selects sourced malformed⟩
    · -- A path that is refused fails the command at this step or at an earlier one.
      cases sourced : read a.source with
      | error e => exact ⟨_, .unread selects sourced⟩
      | ok input =>
          cases decoded : Document.decode input with
          | error e => exact ⟨_, .undecoded selects sourced decoded⟩
          | ok doc => exact ⟨_, .uncompiled selects sourced decoded refuses⟩

/-! ## What makes no difference -/

/-- The same query, whose matches are to be shown in another way. -/
def showing (a : Arguments) (first unique compact : Bool) (default : Option String) : Arguments :=
  { a with first := first, unique := unique, compact := compact, default := default }

theorem FailsWith.showing (fails : a.FailsWith read e) (first unique compact : Bool)
    (default : Option String) : (a.showing first unique compact default).FailsWith read e := by
  cases fails with
  | unexplained explains refuses => exact .unexplained explains refuses
  | unread selects missing => exact .unread selects missing
  | undecoded selects sourced malformed => exact .undecoded selects sourced malformed
  | uncompiled selects sourced decoded refuses => exact .uncompiled selects sourced decoded refuses

theorem failsWith_showing_iff {first unique compact : Bool} {default : Option String} :
    (a.showing first unique compact default).FailsWith read e ↔ a.FailsWith read e :=
  ⟨fun fails => fails.showing a.first a.unique a.compact a.default,
    fun fails => fails.showing first unique compact default⟩

theorem run_showing_eq_error_iff {first unique compact : Bool} {default : Option String} :
    (a.showing first unique compact default).run read = .error e ↔ a.run read = .error e := by
  rw [run_eq_error_iff, run_eq_error_iff, failsWith_showing_iff]

/-- An explanation is the same whatever could be read, and from wherever. -/
theorem run_of_explains_eq (explains : a.explain = true) (file : Option String)
    (read' : Source → Except SourceError (List UInt8)) :
    ({ a with file := file }).run read' = a.run read := by
  have explains' : ({ a with file := file }).explain = true := explains
  rw [run_of_explains explains, run_of_explains explains']
  rfl

/-- **Commands fail in order.**  A command that explains its path does not depend on what could
be read, and fails exactly if strictness refuses the path.  Any other command fails exactly if
its source cannot be read, or what is read is no document, or strictness refuses the path, and
reports the first of these.  The options that say how matches are shown change neither that a
command succeeds nor the failure that it reports. -/
theorem fails_in_order (a : Arguments) (read : Source → Except SourceError (List UInt8)) :
    (a.explain = true →
      (∀ file read', ({ a with file := file }).run read' = a.run read) ∧
      ∀ e, a.run read = .error e ↔ ∃ c, a.Refuses c ∧ e = .query (.unexpected c)) ∧
    (a.explain = false →
      ((∃ e, a.run read = .error e) ↔
        (∃ e, read a.source = .error e) ∨
        (∃ input e, read a.source = .ok input ∧ Document.decode input = .error e) ∨
        ∃ c, a.Refuses c) ∧
      (∀ e, read a.source = .error e → a.run read = .error (.source e)) ∧
      ∀ input, read a.source = .ok input →
        (∀ e, Document.decode input = .error e → a.run read = .error (.query e)) ∧
        ∀ doc, Document.decode input = .ok doc →
          ∀ c, a.Refuses c → a.run read = .error (.query (.unexpected c))) ∧
    ∀ first unique compact default,
      ((∃ text, (a.showing first unique compact default).run read = .ok text) ↔
        ∃ text, a.run read = .ok text) ∧
      ∀ e, (a.showing first unique compact default).run read = .error e ↔
        a.run read = .error e := by
  refine ⟨fun explains => ⟨?_, fun e => ?_⟩, fun selects => ⟨?_, ?_, ?_⟩, ?_⟩
  · exact run_of_explains_eq explains
  · rw [run_of_explains explains, render_eq_error_iff, explanation_eq_error_iff]
  · simp only [run_eq_error_iff]
    exact exists_failsWith_iff selects
  · intro e missing
    exact run_eq_error_iff.2 (.unread selects missing)
  · intro input sourced
    constructor
    · intro e malformed
      exact run_eq_error_iff.2 (.undecoded selects sourced malformed)
    · intro doc decoded c refuses
      exact run_eq_error_iff.2 (.uncompiled selects sourced decoded refuses)
  · intro first unique compact default
    refine ⟨?_, fun e => run_showing_eq_error_iff⟩
    rw [exists_ok_iff, exists_ok_iff]
    exact forall_congr' fun e => not_congr run_showing_eq_error_iff

end Arguments

end JsonSelect
