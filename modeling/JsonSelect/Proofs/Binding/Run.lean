/-
# JsonSelect.Proofs.Binding.Run -- how far a run of bindings gets

`Binding.Executes` says without any record which stores a run of bindings makes in a
document, and which error ends it: those of all bindings, or those before the first that
fails.

* `Binding.runAll_append`: bindings that succeed only move the run on to the next record.
* `Binding.runAll_of_executes`: a run leaves the record after exactly those stores.
* `Binding.runAll_stores_prefix`: so every run is a prefix of its stores, the same one
  whatever record it starts from.
-/
import JsonSelect.Proofs.Binding.Resolution

namespace JsonSelect

set_option autoImplicit false

namespace Binding

variable {ρ : Type}

/-- The record after some stores in order. -/
def storeAll (stores : List (ρ → ρ)) (record : ρ) : ρ :=
  stores.foldl (fun record store => store record) record

/-- What the bindings store, one store each. -/
def Stores (doc : Document) (bindings : List (Binding ρ)) (stores : List (ρ → ρ)) : Prop :=
  List.Forall₂ (fun b store => b.Resolves doc (.ok store)) bindings stores

/-- The stores that a run of bindings makes, and the error that ends it. -/
inductive Executes (doc : Document) : List (Binding ρ) → List (ρ → ρ) → Option BindError → Prop
  | complete {bindings : List (Binding ρ)} {stores : List (ρ → ρ)}
      (each : Stores doc bindings stores) : Executes doc bindings stores none
  | stopped {done rest : List (Binding ρ)} {b : Binding ρ} {stores : List (ρ → ρ)} {e : BindError}
      (each : Stores doc done stores) (fails : b.Resolves doc (.error e)) :
      Executes doc (done ++ b :: rest) stores (some e)

/-! ## Runs -/

/-- Bindings that succeed move the run on. -/
theorem runAll_append {doc : Document} {done : List (Binding ρ)} {stores : List (ρ → ρ)}
    (each : Stores doc done stores) (rest : List (Binding ρ)) (record : ρ) :
    runAll doc (done ++ rest) record = runAll doc rest (storeAll stores record) := by
  induction each generalizing record with
  | nil => rfl
  | cons first others ih =>
      rw [List.cons_append, runAll, resolve_of_resolves first]
      exact ih _

theorem runAll_of_executes {doc : Document} {bindings : List (Binding ρ)}
    {stores : List (ρ → ρ)} {failure : Option BindError}
    (executes : Executes doc bindings stores failure) (record : ρ) :
    runAll doc bindings record = ⟨storeAll stores record, failure⟩ := by
  cases executes with
  | complete each =>
      have run := runAll_append each [] record
      rwa [List.append_nil] at run
  | stopped each fails =>
      rw [runAll_append each, runAll, resolve_of_resolves fails]

/-- Every list of bindings has a first one that fails, or none does. -/
theorem exists_executes (doc : Document) (bindings : List (Binding ρ)) :
    ∃ stores failure, Executes doc bindings stores failure := by
  induction bindings with
  | nil => exact ⟨[], none, .complete .nil⟩
  | cons b bindings ih =>
      obtain ⟨result, first⟩ := b.exists_resolves doc
      cases result with
      | error e =>
          have stops : Executes doc ([] ++ b :: bindings) [] (some e) := .stopped .nil first
          exact ⟨[], some e, stops⟩
      | ok store =>
          obtain ⟨stores, failure, executes⟩ := ih
          refine ⟨store :: stores, failure, ?_⟩
          cases executes with
          | complete each => exact .complete (.cons first each)
          | stopped each fails => exact .stopped (.cons first each) fails

theorem Stores.exists_of_mem {doc : Document} {bindings : List (Binding ρ)}
    {stores : List (ρ → ρ)} (each : Stores doc bindings stores) {b : Binding ρ}
    (member : b ∈ bindings) : ∃ store, b.Resolves doc (.ok store) := by
  induction each with
  | nil => cases member
  | cons first others ih =>
      rcases List.mem_cons.1 member with rfl | later
      · exact ⟨_, first⟩
      · exact ih later

/-- A run ends without an error if no binding fails. -/
theorem Executes.failure_eq_none_iff {doc : Document} {bindings : List (Binding ρ)}
    {stores : List (ρ → ρ)} {failure : Option BindError}
    (executes : Executes doc bindings stores failure) :
    failure = none ↔ ∀ b ∈ bindings, ∃ store, b.Resolves doc (.ok store) := by
  cases executes with
  | complete each => exact ⟨fun _ b member => each.exists_of_mem member, fun _ => rfl⟩
  | @stopped done rest b _ e each fails =>
      refine ⟨nofun, fun all => ?_⟩
      obtain ⟨store, stores⟩ := all b (by simp)
      have same := (resolve_of_resolves stores).symm.trans (resolve_of_resolves fails)
      cases same

/-- Whether a run fails is settled without the record. -/
theorem failure_runAll_eq_none_iff {doc : Document} {bindings : List (Binding ρ)} {record : ρ} :
    (runAll doc bindings record).failure = none ↔
      ∀ b ∈ bindings, ∃ store, b.Resolves doc (.ok store) := by
  obtain ⟨stores, failure, executes⟩ := exists_executes doc bindings
  rw [runAll_of_executes executes]
  exact executes.failure_eq_none_iff

theorem exists_stores {doc : Document} {bindings : List (Binding ρ)} {record : ρ}
    (completed : (runAll doc bindings record).failure = none) :
    ∃ stores, Stores doc bindings stores := by
  obtain ⟨stores, failure, executes⟩ := exists_executes doc bindings
  rw [runAll_of_executes executes] at completed
  subst completed
  cases executes with
  | complete each => exact ⟨stores, each⟩

/-- **A run of bindings is an exact prefix of its stores.**  What a binding stores or
reports is settled by the document alone.  A run makes the stores of all bindings, or
those before the first that fails, whose error it reports; from bytes that are no document
it makes none. -/
theorem runAll_stores_prefix (doc : Document) (bindings : List (Binding ρ)) :
    (∀ (b : Binding ρ) result, b.resolve doc = result ↔ b.Resolves doc result) ∧
      (∃ stores failure, Executes doc bindings stores failure ∧
        (failure = none ↔ ∀ b ∈ bindings, ∃ store, b.Resolves doc (.ok store)) ∧
        ∀ record, runAll doc bindings record = ⟨storeAll stores record, failure⟩) ∧
      (∀ input object, Json.parseObject input = .ok object → ∀ record,
        decodeAndRunAll input bindings record = runAll (.ofMembers object) bindings record) ∧
      ∀ input e, Json.parseObject input = .error e → ∀ record,
        decodeAndRunAll input bindings record = ⟨record, some (.query (.decode e))⟩ := by
  obtain ⟨stores, failure, executes⟩ := exists_executes doc bindings
  refine ⟨fun b result => resolve_eq_iff, ⟨stores, failure, executes, ?_, ?_⟩, ?_, ?_⟩
  · exact executes.failure_eq_none_iff
  · exact runAll_of_executes executes
  · intro input object decoded record
    rw [decodeAndRunAll, Document.decode, decoded]
    rfl
  · intro input e undecoded record
    rw [decodeAndRunAll, Document.decode, undecoded]
    rfl

end Binding

namespace Example

/-- A strict document with a flag and a name. -/
def flagged : Document :=
  ⟨⟨[("flag", .bool true), ("name", .string "x")], by decide +kernel⟩, true⟩

/-- The second binding finds no flag, and the path of the third is refused. -/
def flags : List (Binding (List Bool)) :=
  [⟨"first", "$.flag", .one .bool fun (x : Bool) record => x :: record⟩,
    ⟨"second", "$.name", .one .bool fun (x : Bool) record => x :: record⟩,
    ⟨"third", "$.flag!", .one .bool fun (x : Bool) record => x :: record⟩]

example : Binding.runAll flagged flags [false] =
    ⟨[true, false], some (.wrongKind "second" .bool .string)⟩ := by
  cbv

theorem flags_prefix :
    (∃ stores failure, Binding.Executes flagged flags stores failure ∧
      ∀ record, Binding.runAll flagged flags record = ⟨Binding.storeAll stores record, failure⟩) ∧
      Json.parseObject [0x7b, 0x7d] = .ok ∅ ∧
      (∀ record, Binding.decodeAndRunAll [0x7b, 0x7d] flags record =
        Binding.runAll (.ofMembers ∅) flags record) ∧
      Json.parseObject [0x7b] = .error ⟨.endInObject, 1, 1⟩ ∧
      ∀ record, Binding.decodeAndRunAll [0x7b] flags record =
        ⟨record, some (.query (.decode ⟨.endInObject, 1, 1⟩))⟩ := by
  have decoded : Json.parseObject [0x7b, 0x7d] = .ok ∅ := rfl
  have undecoded : Json.parseObject [0x7b] = .error ⟨.endInObject, 1, 1⟩ := rfl
  obtain ⟨-, ⟨stores, failure, executes, -, runs⟩, reads, fails⟩ :=
    Binding.runAll_stores_prefix flagged flags
  exact ⟨⟨stores, failure, executes, runs⟩, decoded, reads _ _ decoded, undecoded,
    fails _ _ undecoded⟩

end Example

end JsonSelect
