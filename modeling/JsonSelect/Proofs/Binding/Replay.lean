/-
# JsonSelect.Proofs.Binding.Replay -- bindings that overwrite the entries of their fields

A `Layout` says of which entries records are made.  Where a binding stores nothing but the entry
named after its field, whatever was there, the record after a run shows which fields were
stored and nothing of how often or in which order.

* `Layout.entry_storeAll_of_mem`, `Layout.entry_storeAll_of_not_mem`: after some stores an
  entry is settled by the last one named after it, or it is as before.
* `Binding.Stores.storeAll_eq_of_perm`: fields with different names are stored in any order.
* `Binding.runAll_overwriting`: a run can be repeated, leaves the other entries alone and can be
  rearranged.
* `Record.layout`: the records of named entries are of this kind.
-/
import JsonSelect.Binding.Record
import JsonSelect.Proofs.Binding.Run
import JsonSelect.Proofs.Json.MemberOrder
import JsonSelect.Json.Ordered

namespace JsonSelect

set_option autoImplicit false

variable {ρ : Type}

/-! ## Entries of records -/

/-- The entries that records are made of.  Two proper records with the same entries are the
same. -/
structure Layout (ρ : Type) where
  Content : String → Type
  entry : (name : String) → ρ → Content name
  Proper : ρ → Prop
  ext : ∀ {r s : ρ}, Proper r → Proper s → (∀ name, entry name r = entry name s) → r = s

/-- The store settles the entry with this name, whatever was there, and leaves the others as they
are. -/
structure Layout.Overwrites (layout : Layout ρ) (name : String) (store : ρ → ρ) : Prop where
  proper : ∀ {r}, layout.Proper r → layout.Proper (store r)
  settled : ∀ {r s}, layout.Proper r → layout.Proper s →
    layout.entry name (store r) = layout.entry name (store s)
  framed : ∀ {other r}, other ≠ name → layout.Proper r →
    layout.entry other (store r) = layout.entry other r

/-- Whatever values are stored, they overwrite the entry with this name. -/
def Target.Overwrites (layout : Layout ρ) (name : String) : Target ρ → Prop
  | .one _ store => ∀ x, layout.Overwrites name (store x)
  | .many _ store => ∀ xs, layout.Overwrites name (store xs)

theorem Target.Takes.overwrites {layout : Layout ρ} {name field path : String}
    {found : List Json} {target : Target ρ} {store : ρ → ρ}
    (takes : target.Takes field path found (.ok store))
    (overwrite : target.Overwrites layout name) : layout.Overwrites name store := by
  cases takes with
  | one converts => exact overwrite _
  | many convert => exact overwrite _

/-! ## Stores in a row -/

namespace Layout

open Binding

variable {layout : Layout ρ} {names : List String} {stores : List (ρ → ρ)} {r s : ρ}

theorem proper_storeAll (each : List.Forall₂ layout.Overwrites names stores)
    (proper : layout.Proper r) : layout.Proper (storeAll stores r) := by
  induction each generalizing r with
  | nil => exact proper
  | cons first others ih => exact ih (first.proper proper)

/-- An entry that no store is named after stays as it is. -/
theorem entry_storeAll_of_not_mem (each : List.Forall₂ layout.Overwrites names stores)
    (proper : layout.Proper r) {name : String} (unnamed : name ∉ names) :
    layout.entry name (storeAll stores r) = layout.entry name r := by
  induction each generalizing r with
  | nil => rfl
  | cons first others ih =>
      rw [List.mem_cons, not_or] at unnamed
      exact (ih (first.proper proper) unnamed.2).trans (first.framed unnamed.1 proper)

/-- An entry that some store is named after is settled, by the last of them. -/
theorem entry_storeAll_of_mem (each : List.Forall₂ layout.Overwrites names stores)
    (properR : layout.Proper r) (properS : layout.Proper s) {name : String}
    (named : name ∈ names) :
    layout.entry name (storeAll stores r) = layout.entry name (storeAll stores s) := by
  induction each generalizing r s with
  | nil => cases named
  | @cons first store names stores overwrites others ih =>
      have properR' := overwrites.proper properR
      have properS' := overwrites.proper properS
      show layout.entry name (storeAll stores (store r)) =
        layout.entry name (storeAll stores (store s))
      by_cases later : name ∈ names
      · exact ih properR' properS' later
      · obtain rfl : name = first := (List.mem_cons.1 named).resolve_right later
        rw [entry_storeAll_of_not_mem others properR' later,
          entry_storeAll_of_not_mem others properS' later]
        exact overwrites.settled properR properS

/-- Repeating some stores changes nothing. -/
theorem storeAll_storeAll (each : List.Forall₂ layout.Overwrites names stores)
    (proper : layout.Proper r) : storeAll stores (storeAll stores r) = storeAll stores r := by
  have stored := proper_storeAll each proper
  refine layout.ext (proper_storeAll each stored) stored fun name => ?_
  by_cases named : name ∈ names
  · exact entry_storeAll_of_mem each stored proper named
  · exact entry_storeAll_of_not_mem each stored named

end Layout

/-! ## Bindings that overwrite -/

namespace Binding

variable {layout : Layout ρ} {doc : Document} {bindings permuted : List (Binding ρ)}
  {stores stores' : List (ρ → ρ)} {record : ρ}

theorem Resolves.overwrites {b : Binding ρ} {store : ρ → ρ}
    (resolves : b.Resolves doc (.ok store))
    (overwrite : b.target.Overwrites layout b.field) : layout.Overwrites b.field store := by
  cases resolves with
  | answered accepts takes => exact takes.overwrites overwrite

theorem Stores.overwrites (each : Stores doc bindings stores)
    (overwrite : ∀ b ∈ bindings, b.target.Overwrites layout b.field) :
    List.Forall₂ layout.Overwrites (bindings.map field) stores := by
  induction each with
  | nil => exact .nil
  | cons first others ih =>
      obtain ⟨overwriteFirst, overwriteOthers⟩ := List.forall_mem_cons.1 overwrite
      exact .cons (first.overwrites overwriteFirst) (ih overwriteOthers)

/-- The stores of a run are named after fields, also when the run fails. -/
theorem Executes.overwrites {failure : Option BindError}
    (executes : Executes doc bindings stores failure)
    (overwrite : ∀ b ∈ bindings, b.target.Overwrites layout b.field) :
    ∃ names, names ⊆ bindings.map field ∧ List.Forall₂ layout.Overwrites names stores := by
  cases executes with
  | complete each => exact ⟨_, List.Subset.refl _, each.overwrites overwrite⟩
  | stopped each fails =>
      refine ⟨_, ?_, each.overwrites (List.forall_mem_append.1 overwrite).1⟩
      rw [List.map_append]
      exact List.subset_append_left _ _

/-- Where no two fields have one name, an entry is what the store of its field made it. -/
theorem Stores.entry_storeAll (each : Stores doc bindings stores)
    (overwrite : ∀ b ∈ bindings, b.target.Overwrites layout b.field)
    (distinct : (bindings.map field).Nodup) (proper : layout.Proper record) {b : Binding ρ}
    (member : b ∈ bindings) {store : ρ → ρ} (resolves : b.Resolves doc (.ok store)) :
    layout.entry b.field (storeAll stores record) = layout.entry b.field (store record) := by
  induction each generalizing record with
  | nil => cases member
  | @cons c made bindings stores first others ih =>
      obtain ⟨overwriteFirst, overwriteOthers⟩ := List.forall_mem_cons.1 overwrite
      rw [List.map_cons, List.nodup_cons] at distinct
      have proper' := (first.overwrites overwriteFirst).proper proper
      rcases List.mem_cons.1 member with rfl | later
      · cases (resolve_of_resolves resolves).symm.trans (resolve_of_resolves first)
        exact Layout.entry_storeAll_of_not_mem (Stores.overwrites others overwriteOthers) proper'
          distinct.1
      · have settled := (resolves.overwrites (overwriteOthers b later)).settled proper' proper
        exact (ih overwriteOthers distinct.2 proper' later).trans settled

/-- Fields with different names are stored in any order. -/
theorem Stores.storeAll_eq_of_perm (each : Stores doc bindings stores)
    (each' : Stores doc permuted stores') (perm : permuted.Perm bindings)
    (overwrite : ∀ b ∈ bindings, b.target.Overwrites layout b.field)
    (distinct : (bindings.map field).Nodup) (proper : layout.Proper record) :
    storeAll stores' record = storeAll stores record := by
  have overwrite' : ∀ b ∈ permuted, b.target.Overwrites layout b.field :=
    fun b member => overwrite b (perm.mem_iff.1 member)
  have distinct' : (permuted.map field).Nodup := (perm.map field).nodup_iff.2 distinct
  have writes := each.overwrites overwrite
  have writes' := each'.overwrites overwrite'
  refine layout.ext (Layout.proper_storeAll writes' proper) (Layout.proper_storeAll writes proper)
    fun name => ?_
  by_cases named : name ∈ bindings.map field
  · obtain ⟨b, member, rfl⟩ := List.mem_map.1 named
    obtain ⟨store, resolves⟩ := each.exists_of_mem member
    rw [each.entry_storeAll overwrite distinct proper member resolves,
      each'.entry_storeAll overwrite' distinct' proper (perm.mem_iff.2 member) resolves]
  · have unnamed : name ∉ permuted.map field :=
      fun inside => named ((perm.map field).mem_iff.1 inside)
    rw [Layout.entry_storeAll_of_not_mem writes proper named,
      Layout.entry_storeAll_of_not_mem writes' proper unnamed]

/-- **A run of overwriting bindings can be repeated and rearranged.**  Running the same bindings
on the record that a run left, failed or not, ends in the same way and leaves that record.
Entries that no field is named after are as they were.  If no two fields have one name, the
bindings succeed in every order or in none, and leave the same record in each. -/
theorem runAll_overwriting (layout : Layout ρ) (doc : Document) {bindings : List (Binding ρ)}
    (overwrite : ∀ b ∈ bindings, b.target.Overwrites layout b.field) {record : ρ}
    (proper : layout.Proper record) :
    runAll doc bindings (runAll doc bindings record).record = runAll doc bindings record ∧
      (∀ name ∉ bindings.map field,
        layout.entry name (runAll doc bindings record).record = layout.entry name record) ∧
      ((bindings.map field).Nodup → ∀ permuted, permuted.Perm bindings →
        ((runAll doc permuted record).failure = none ↔
            (runAll doc bindings record).failure = none) ∧
          ((runAll doc bindings record).failure = none →
            runAll doc permuted record = runAll doc bindings record)) := by
  obtain ⟨stores, failure, executes⟩ := exists_executes doc bindings
  have run := runAll_of_executes executes
  obtain ⟨names, fields, writes⟩ := executes.overwrites overwrite
  refine ⟨?_, ?_, ?_⟩
  · rw [run record, run, Layout.storeAll_storeAll writes proper]
  · intro name unnamed
    rw [run]
    exact Layout.entry_storeAll_of_not_mem writes proper fun inside => unnamed (fields inside)
  · intro distinct permuted perm
    have success : (runAll doc permuted record).failure = none ↔
        (runAll doc bindings record).failure = none := by
      simp only [failure_runAll_eq_none_iff, perm.mem_iff]
    refine ⟨success, fun completed => ?_⟩
    obtain ⟨stores, each⟩ := exists_stores completed
    obtain ⟨stores', each'⟩ := exists_stores (success.2 completed)
    rw [runAll_of_executes (.complete each), runAll_of_executes (.complete each'),
      each.storeAll_eq_of_perm each' perm overwrite distinct proper]

end Binding

/-! ## Records of named entries -/

/-- Entries in order are the same if every key is looked up alike. -/
theorem Keyed.Ascending.ext {α : Type} {entries entries' : Keyed α}
    (ascending : Ascending entries) (ascending' : Ascending entries')
    (alike : ∀ key, get? key entries = get? key entries') : entries = entries' := by
  have nodup {entries : Keyed α} (ascending : Ascending entries) : entries.Nodup := by
    refine ascending.imp fun {a b} before same => ?_
    rw [same] at before
    exact not_before_self b.1 before
  refine ascending.eq_of_perm ascending' ?_
  rw [List.perm_ext_iff_of_nodup (nodup ascending) (nodup ascending')]
  rintro ⟨key, value⟩
  rw [← get?_eq_some_iff ascending, ← get?_eq_some_iff ascending', alike]

namespace Record

/-- An entry may be missing.  The names of a proper record ascend. -/
def layout : Layout Record where
  Content _ := Option Entry
  entry := Keyed.get?
  Proper := Keyed.Ascending
  ext proper proper' alike := proper.ext proper' alike

theorem overwrites_insert (field : String) (e : Entry) :
    layout.Overwrites field (Keyed.insert field e) where
  proper := Keyed.ascending_insert field e
  settled {r s} _ _ := by
    show Keyed.get? field _ = Keyed.get? field _
    rw [Keyed.get?_insert, Keyed.get?_insert, if_pos rfl, if_pos rfl]
  framed {other r} different _ := by
    show Keyed.get? other _ = Keyed.get? other _
    rw [Keyed.get?_insert, if_neg (Ne.symm different)]

theorem one_overwrites (field path : String) (type : FieldType) :
    (Binding.one field path type).target.Overwrites layout field :=
  fun _ => overwrites_insert field _

theorem many_overwrites (field path : String) (type : FieldType) :
    (Binding.many field path type).target.Overwrites layout field :=
  fun _ => overwrites_insert field _

end Record

namespace Example

/-- The last binding finds no match. -/
def nameTwice : List (Binding Record) :=
  [.one "name" "$.name" .string, .many "name" "$.flag" .bool, .one "age" "$.age" .number]

def nameAndFlag : List (Binding Record) :=
  [.one "name" "$.name" .string, .many "flag" "$.flag" .bool]

def aged : Record := [("age", .one "7.0"), ("name", .one "\"y\"")]

theorem name_and_flag_in_any_order :
    Record.layout.Proper aged ∧
      (∀ b ∈ nameTwice, b.target.Overwrites Record.layout b.field) ∧
      (∀ b ∈ nameAndFlag, b.target.Overwrites Record.layout b.field) ∧
      Binding.runAll flagged nameTwice (Binding.runAll flagged nameTwice aged).record =
        Binding.runAll flagged nameTwice aged ∧
      "age" ∉ nameAndFlag.map Binding.field ∧
      Keyed.get? "age" (Binding.runAll flagged nameAndFlag aged).record = some (.one "7.0") ∧
      (nameAndFlag.map Binding.field).Nodup ∧
      (Binding.runAll flagged nameAndFlag aged).failure = none ∧
      Binding.runAll flagged nameAndFlag.reverse aged =
        Binding.runAll flagged nameAndFlag aged := by
  have proper : Record.layout.Proper aged := by
    show Keyed.Ascending aged
    decide +kernel
  have twice : ∀ b ∈ nameTwice, b.target.Overwrites Record.layout b.field := by
    simp only [nameTwice, List.forall_mem_cons]
    exact ⟨Record.one_overwrites _ _ _, Record.many_overwrites _ _ _, Record.one_overwrites _ _ _,
      List.forall_mem_nil _⟩
  have both : ∀ b ∈ nameAndFlag, b.target.Overwrites Record.layout b.field := by
    simp only [nameAndFlag, List.forall_mem_cons]
    exact ⟨Record.one_overwrites _ _ _, Record.many_overwrites _ _ _, List.forall_mem_nil _⟩
  have unnamed : "age" ∉ nameAndFlag.map Binding.field := by decide +kernel
  have distinct : (nameAndFlag.map Binding.field).Nodup := by decide +kernel
  have completed : (Binding.runAll flagged nameAndFlag aged).failure = none := by decide +kernel
  obtain ⟨replayed, -, -⟩ := Binding.runAll_overwriting Record.layout flagged twice proper
  obtain ⟨-, framed, rearranged⟩ := Binding.runAll_overwriting Record.layout flagged both proper
  exact ⟨proper, twice, both, replayed, unnamed, framed "age" unnamed, distinct, completed,
    (rearranged distinct _ (List.reverse_perm _)).2 completed⟩

end Example

end JsonSelect
