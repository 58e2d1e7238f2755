/-
# JsonSelect.Proofs.Strictness -- strictness only refuses

A strict document, a strict run of bindings and a strict command refuse some expressions.
What they do not refuse they answer as the lenient ones do.

* `Document.tryQuery_lenient`: a query that is answered is answered leniently.
* `Binding.runAll_lenient`, `Binding.runAll_refused`: a run of bindings is the lenient one,
  or the lenient one up to the binding whose path is refused.
* `Arguments.run_lenient`: a command that succeeds shows what the lenient one shows.
* `strict_only_refuses`: all of this together.
-/
import JsonSelect.CommandLine.Run
import JsonSelect.Proofs.Binding.Run

namespace JsonSelect

set_option autoImplicit false

variable {ρ : Type}

/-! ## Queries -/

theorem Document.tryQuery_lenient {doc : Document} {expression : String} {found : List Json}
    (answered : doc.tryQuery expression = .ok found) :
    (doc.withStrict false).tryQuery expression = .ok found := by
  rw [tryQuery_eq_ok_iff] at answered ⊢
  exact ⟨not_refuses_of_lenient rfl expression, answered.2⟩

/-! ## Bindings -/

/-- No error of a target is about an expression. -/
theorem Target.Takes.ne_query {field path : String} {found : List Json} {target : Target ρ}
    {result : Except BindError (ρ → ρ)} (takes : target.Takes field path found result)
    (e : QueryError) : result ≠ .error (.query e) := by
  cases takes <;> exact nofun

namespace Binding

theorem Resolves.lenient {doc : Document} {b : Binding ρ} {result : Except BindError (ρ → ρ)}
    (resolves : b.Resolves doc result) (answered : ∀ e, result ≠ .error (.query e)) :
    b.Resolves (doc.withStrict false) result := by
  cases resolves with
  | refused refuses => exact absurd rfl (answered _)
  | answered accepts takes => exact .answered (Document.not_refuses_of_lenient rfl b.path) takes

theorem Resolves.exists_refuses {doc : Document} {b : Binding ρ} {e : QueryError}
    (fails : b.Resolves doc (.error (.query e))) :
    ∃ c, doc.Refuses b.path c ∧ e = .unexpected c := by
  cases fails with
  | refused refuses => exact ⟨_, refuses, rfl⟩
  | answered accepts takes => exact absurd rfl (takes.ne_query e)

theorem Stores.lenient {doc : Document} {bindings : List (Binding ρ)} {stores : List (ρ → ρ)}
    (each : Stores doc bindings stores) : Stores (doc.withStrict false) bindings stores := by
  refine List.Forall₂.imp (fun b store resolves => ?_) each
  exact resolves.lenient fun e same => nomatch same

/-- A run that no refusal ends is the lenient one. -/
theorem Executes.lenient {doc : Document} {bindings : List (Binding ρ)} {stores : List (ρ → ρ)}
    {failure : Option BindError} (executes : Executes doc bindings stores failure)
    (answered : ∀ e, failure ≠ some (.query e)) :
    Executes (doc.withStrict false) bindings stores failure := by
  cases executes with
  | complete each => exact .complete each.lenient
  | stopped each fails =>
      refine .stopped each.lenient (fails.lenient fun e same => ?_)
      cases same
      exact answered e rfl

/-- A refusal ends a run at the binding whose path is refused. -/
theorem Executes.exists_refused {doc : Document} {bindings : List (Binding ρ)}
    {stores : List (ρ → ρ)} {e : QueryError}
    (executes : Executes doc bindings stores (some (.query e))) :
    ∃ done b rest c, bindings = done ++ b :: rest ∧ Stores doc done stores ∧
      doc.Refuses b.path c ∧ e = .unexpected c := by
  cases executes with
  | @stopped done rest b _ _ each fails =>
      obtain ⟨c, refuses, same⟩ := fails.exists_refuses
      exact ⟨done, b, rest, c, rfl, each, refuses, same⟩

/-- Without a refusal a strict run is the lenient one. -/
theorem runAll_lenient {doc : Document} {bindings : List (Binding ρ)} {record : ρ}
    {outcome : Outcome ρ} (ran : runAll doc bindings record = outcome)
    (answered : ∀ e, outcome.failure ≠ some (.query e)) :
    runAll (doc.withStrict false) bindings record = outcome := by
  obtain ⟨stores, failure, executes⟩ := exists_executes doc bindings
  rw [runAll_of_executes executes] at ran
  subst ran
  exact runAll_of_executes (executes.lenient answered) record

/-- A refusal leaves what the lenient run of the bindings before it leaves. -/
theorem runAll_refused {doc : Document} {bindings : List (Binding ρ)} {record left : ρ}
    {e : QueryError} (ran : runAll doc bindings record = ⟨left, some (.query e)⟩) :
    ∃ done b rest c, bindings = done ++ b :: rest ∧ doc.Refuses b.path c ∧ e = .unexpected c ∧
      runAll doc done record = ⟨left, none⟩ ∧
      runAll (doc.withStrict false) done record = ⟨left, none⟩ := by
  obtain ⟨stores, failure, executes⟩ := exists_executes doc bindings
  have outcome := (runAll_of_executes executes record).symm.trans ran
  cases outcome
  obtain ⟨done, b, rest, c, split, each, refuses, same⟩ := executes.exists_refused
  have before := runAll_of_executes (.complete each) record
  have lenient := runAll_lenient before fun e same => nomatch same
  exact ⟨done, b, rest, c, split, refuses, same, before, lenient⟩

end Binding

/-! ## Commands -/

theorem Path.compileAs_lenient {strict : Bool} {expression : String} {path : Path}
    (compiled : compileAs strict expression = .ok path) :
    compileAs false expression = .ok path := by
  cases strict with
  | false => exact compiled
  | true =>
      have same := eq_compile_of_compileStrict compiled
      rw [compileAs, same]
      rfl

namespace Arguments

def withStrict (a : Arguments) (strict : Bool) : Arguments := { a with strict := strict }

theorem explanation_lenient {a : Arguments} {shown : Json}
    (explained : a.explanation = .ok shown) : (a.withStrict false).explanation = .ok shown := by
  rw [explanation, mapError_eq_ok_iff, map_eq_ok_iff] at explained ⊢
  obtain ⟨path, compiled, rfl⟩ := explained
  exact ⟨path, Path.compileAs_lenient compiled, rfl⟩

theorem selection_lenient {a : Arguments} {input : List UInt8} {shown : Json}
    (selected : a.selection input = .ok shown) :
    (a.withStrict false).selection input = .ok shown := by
  rw [selection, mapError_eq_ok_iff] at selected ⊢
  obtain ⟨doc, decoded, answered⟩ := bind_eq_ok_iff.1 selected
  obtain ⟨found, matched, refined⟩ := map_eq_ok_iff.1 answered
  have matched := Document.tryQuery_lenient matched
  exact bind_eq_ok_iff.2 ⟨doc, decoded, map_eq_ok_iff.2 ⟨found, matched, refined⟩⟩

theorem run_lenient {a : Arguments} {read : Source → Except SourceError (List UInt8)}
    {text : List Char} (success : a.run read = .ok text) :
    (a.withStrict false).run read = .ok text := by
  by_cases explain : a.explain = true
  · rw [run, if_pos explain] at success
    rw [run, if_pos (show (a.withStrict false).explain = true from explain)]
    obtain ⟨shown, explained, rendered⟩ := bind_eq_ok_iff.1 success
    exact bind_eq_ok_iff.2 ⟨shown, explanation_lenient explained, rendered⟩
  · rw [run, if_neg explain] at success
    rw [run, if_neg (show ¬ (a.withStrict false).explain = true from explain)]
    obtain ⟨input, sourced, answered⟩ := bind_eq_ok_iff.1 success
    obtain ⟨shown, selected, rendered⟩ := bind_eq_ok_iff.1 answered
    refine bind_eq_ok_iff.2 ⟨input, sourced, bind_eq_ok_iff.2 ⟨shown, ?_, rendered⟩⟩
    exact selection_lenient selected

end Arguments

/-! ## All together -/

/-- **Strictness only refuses.**  A strict query that is answered is answered with the
lenient matches.  A strict run of bindings without a refusal is the lenient run, and one
with a refusal leaves what the bindings before the refused one leave, which succeed either
way.  A strict command that succeeds replies as the lenient one. -/
theorem strict_only_refuses (doc : Document) (bindings : List (Binding ρ)) (record : ρ)
    (a : Arguments) (read : Source → Except SourceError (List UInt8)) :
    (∀ expression found, (doc.withStrict true).tryQuery expression = .ok found →
      (doc.withStrict false).tryQuery expression = .ok found ∧
        found = doc.query expression) ∧
      (∀ outcome, Binding.runAll (doc.withStrict true) bindings record = outcome →
        (∀ e, outcome.failure ≠ some (.query e)) →
        Binding.runAll (doc.withStrict false) bindings record = outcome) ∧
      (∀ left e, Binding.runAll (doc.withStrict true) bindings record = ⟨left, some (.query e)⟩ →
        ∃ done b rest c, bindings = done ++ b :: rest ∧
          Path.compileStrict b.path = .error c ∧ e = .unexpected c ∧
          Binding.runAll (doc.withStrict true) done record = ⟨left, none⟩ ∧
          Binding.runAll (doc.withStrict false) done record = ⟨left, none⟩) ∧
      ∀ text, (a.withStrict true).run read = .ok text →
        (a.withStrict false).run read = .ok text ∧
          (Invocation.query (a.withStrict false)).reply read =
            (Invocation.query (a.withStrict true)).reply read := by
  refine ⟨?_, ?_, ?_, ?_⟩
  · intro expression found answered
    have lenient := Document.tryQuery_lenient answered
    exact ⟨lenient, (Document.tryQuery_eq_ok_iff.1 answered).2⟩
  · intro outcome ran answered
    have lenient := Binding.runAll_lenient ran answered
    exact lenient
  · intro left e ran
    obtain ⟨done, b, rest, c, split, refuses, same, before, lenient⟩ := Binding.runAll_refused ran
    exact ⟨done, b, rest, c, split, refuses.2, same, before, lenient⟩
  · intro text success
    have lenient := Arguments.run_lenient success
    refine ⟨lenient, ?_⟩
    have same : (a.withStrict false).run read = (a.withStrict true).run read :=
      lenient.trans success.symm
    rw [Invocation.reply, Invocation.reply, same]

namespace Example

/-- The path of the last binding is refused by a strict document. -/
def refusedFlags : List (Binding (List Bool)) :=
  [⟨"first", "$.flag", .one .bool fun (x : Bool) record => x :: record⟩,
    ⟨"second", "$.flag!", .one .bool fun (x : Bool) record => x :: record⟩]

def showFlag : Arguments := ⟨"$.flag", none, true, true, true, false, true, none⟩

/-- These bytes on the standard input, and no files. -/
def onInput (input : List UInt8) : Source → Except SourceError (List UInt8)
  | .standardInput => .ok input
  | .file _ => .error .notFound

/-- An empty object on the standard input. -/
def emptyInput : Source → Except SourceError (List UInt8) := onInput [0x7b, 0x7d]

theorem strict_flag :
    (flagged.withStrict false).tryQuery "$.flag" = .ok [.bool true] ∧
      Binding.runAll (flagged.withStrict false) (refusedFlags.take 1) [] = ⟨[true], none⟩ ∧
      (∃ done b rest c, refusedFlags = done ++ b :: rest ∧
        Path.compileStrict b.path = .error c ∧
        QueryError.unexpected ⟨6, '!'⟩ = .unexpected c ∧
        Binding.runAll (flagged.withStrict true) done [] = ⟨[true], none⟩ ∧
        Binding.runAll (flagged.withStrict false) done [] = ⟨[true], none⟩) ∧
      (showFlag.withStrict false).run emptyInput = .ok "[]".toList := by
  have compiled : Path.compileStrict "$.flag" = .ok [.child "flag"] := by decide +kernel
  have refused : Path.compileStrict "$.flag!" = .error ⟨6, '!'⟩ := by decide +kernel
  have answered : (flagged.withStrict true).tryQuery "$.flag" = .ok [.bool true] := by
    show ((Path.compileStrict "$.flag").map _).mapError _ = _
    rw [compiled]
    rfl
  have completed : Binding.runAll (flagged.withStrict true) (refusedFlags.take 1) [] =
      ⟨[true], none⟩ := by
    show Binding.runAll (flagged.withStrict true) [_] [] = _
    rw [Binding.runAll, Binding.resolve, answered]
    rfl
  have stopped : Binding.runAll (flagged.withStrict true) refusedFlags [] =
      ⟨[true], some (.query (.unexpected ⟨6, '!'⟩))⟩ := by
    have refuses : (flagged.withStrict true).Refuses "$.flag!" ⟨6, '!'⟩ := ⟨rfl, refused⟩
    have unanswered := Document.tryQuery_of_refuses refuses
    rw [refusedFlags, Binding.runAll, Binding.resolve, answered]
    show Binding.runAll (flagged.withStrict true) [_] [true] = _
    rw [Binding.runAll, Binding.resolve, unanswered]
    rfl
  have success : (showFlag.withStrict true).run emptyInput = .ok "[]".toList := by
    refine bind_eq_ok_iff.2 ⟨[0x7b, 0x7d], rfl, bind_eq_ok_iff.2 ⟨.array [], ?_, rfl⟩⟩
    refine mapError_eq_ok_iff.2 (bind_eq_ok_iff.2 ⟨.ofMembers ∅, rfl, ?_⟩)
    show (((Path.compileStrict "$.flag").map _).mapError _).map _ = _
    rw [compiled]
    rfl
  obtain ⟨queries, -, refusals, commands⟩ :=
    strict_only_refuses flagged refusedFlags [] showFlag emptyInput
  obtain ⟨-, runs, -, -⟩ :=
    strict_only_refuses flagged (refusedFlags.take 1) [] showFlag emptyInput
  have unrefused : ∀ e, (none : Option BindError) ≠ some (.query e) := by
    intro e same
    cases same
  exact ⟨(queries _ _ answered).1, runs _ completed unrefused, refusals _ _ stopped,
    (commands _ success).1⟩

end Example

end JsonSelect
