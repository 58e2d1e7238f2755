/-
# JsonSelect.Proofs.Binding.Resolution -- what a binding makes of a document

`Target.Takes` says of matches, one by one, what a target makes of them, and
`Binding.Resolves` says it of a binding and a document.  Neither knows of a record.

* `Binding.forall₂_or_first_wrong`: all values of a list convert, or there is a first one
  that does not.
* `Binding.resolve_eq_iff`: a binding resolves to what the rules give it, and to nothing
  else.
-/
import JsonSelect.Binding.Basic
import JsonSelect.Proofs.Document.Refusal
import Mathlib.Data.List.Forall2

namespace JsonSelect

set_option autoImplicit false

variable {ρ : Type}

/-- What a target makes of the matches of a field: a store, or the error of the field. -/
inductive Target.Takes (field path : String) :
    List Json → Target ρ → Except BindError (ρ → ρ) → Prop
  /-- The first match is stored. -/
  | one {type : FieldType} {store : type.Carrier → ρ → ρ} {v : Json} {rest : List Json}
      {x : type.Carrier} (converts : type.convert v = some x) :
      Takes field path (v :: rest) (.one type store) (.ok (store x))
  | noMatch {type : FieldType} {store : type.Carrier → ρ → ρ} :
      Takes field path [] (.one type store) (.error (.noMatch field path))
  | wrongFirst {type : FieldType} {store : type.Carrier → ρ → ρ} {v : Json} {rest : List Json}
      (wrong : type.convert v = none) :
      Takes field path (v :: rest) (.one type store) (.error (.wrongKind field type v.kind))
  /-- All matches are stored. -/
  | many {type : FieldType} {store : List type.Carrier → ρ → ρ} {found : List Json}
      {xs : List type.Carrier}
      (convert : List.Forall₂ (fun v x => type.convert v = some x) found xs) :
      Takes field path found (.many type store) (.ok (store xs))
  /-- The first match that does not convert is reported. -/
  | wrongAmong {type : FieldType} {store : List type.Carrier → ρ → ρ} {before after : List Json}
      {v : Json} (convert : ∀ w ∈ before, type.convert w ≠ none) (wrong : type.convert v = none) :
      Takes field path (before ++ v :: after) (.many type store)
        (.error (.wrongKind field type v.kind))

/-- What a binding makes of a document: a store, or the error of the field. -/
inductive Binding.Resolves (doc : Document) (b : Binding ρ) : Except BindError (ρ → ρ) → Prop
  | refused {e : UnexpectedChar} (refuses : doc.Refuses b.path e) :
      Resolves doc b (.error (.query (.unexpected e)))
  | answered {result : Except BindError (ρ → ρ)} (accepts : ∀ e, ¬ doc.Refuses b.path e)
      (takes : b.target.Takes b.field b.path (doc.query b.path) result) :
      Resolves doc b result

namespace Binding

/-! ## Conversion -/

theorem convert_of_some {field : String} {type : FieldType} {v : Json} {x : type.Carrier}
    (converts : type.convert v = some x) : convert field type v = .ok x := by
  rw [convert, converts]

theorem convert_of_none {field : String} {type : FieldType} {v : Json}
    (wrong : type.convert v = none) :
    convert field type v = .error (.wrongKind field type v.kind) := by
  rw [convert, wrong]

theorem convertAll_of_forall₂ {field : String} {type : FieldType} {found : List Json}
    {xs : List type.Carrier}
    (convert : List.Forall₂ (fun v x => type.convert v = some x) found xs) :
    convertAll field type found = .ok xs := by
  induction convert with
  | nil => rfl
  | cons first others ih =>
      rw [convertAll, convert_of_some first, ih]
      rfl

theorem convertAll_of_first_wrong {field : String} {type : FieldType} {before after : List Json}
    {v : Json} (convert : ∀ w ∈ before, type.convert w ≠ none) (wrong : type.convert v = none) :
    convertAll field type (before ++ v :: after) = .error (.wrongKind field type v.kind) := by
  induction before with
  | nil =>
      rw [List.nil_append, convertAll, convert_of_none wrong]
      rfl
  | cons w before ih =>
      obtain ⟨first, others⟩ := List.forall_mem_cons.1 convert
      obtain ⟨x, first⟩ := Option.ne_none_iff_exists'.1 first
      rw [List.cons_append, convertAll, convert_of_some first, ih others]
      rfl

/-- Either all values convert, or there is a first one that does not. -/
theorem forall₂_or_first_wrong (type : FieldType) (found : List Json) :
    (∃ xs, List.Forall₂ (fun v x => type.convert v = some x) found xs) ∨
      ∃ before v after, found = before ++ v :: after ∧
        (∀ w ∈ before, type.convert w ≠ none) ∧ type.convert v = none := by
  induction found with
  | nil => exact .inl ⟨[], .nil⟩
  | cons v found ih =>
      cases first : type.convert v with
      | none => exact .inr ⟨[], v, found, rfl, by simp, first⟩
      | some x =>
          rcases ih with ⟨xs, others⟩ | ⟨before, w, after, rfl, others, wrong⟩
          · exact .inl ⟨x :: xs, .cons first others⟩
          · refine .inr ⟨v :: before, w, after, rfl, ?_, wrong⟩
            exact List.forall_mem_cons.2 ⟨by simp [first], others⟩

/-! ## Targets -/

theorem storing_of_takes {b : Binding ρ} {found : List Json} {result : Except BindError (ρ → ρ)}
    (takes : b.target.Takes b.field b.path found result) : b.storing found = result := by
  obtain ⟨field, path, target⟩ := b
  cases takes with
  | one converts =>
      simp only [storing, convert_of_some converts]
      rfl
  | noMatch => rfl
  | wrongFirst wrong =>
      simp only [storing, convert_of_none wrong]
      rfl
  | many convert =>
      simp only [storing, convertAll_of_forall₂ convert]
      rfl
  | wrongAmong convert wrong =>
      simp only [storing, convertAll_of_first_wrong convert wrong]
      rfl

theorem exists_takes (b : Binding ρ) (found : List Json) :
    ∃ result, b.target.Takes b.field b.path found result := by
  obtain ⟨field, path, target⟩ := b
  cases target with
  | one type store =>
      cases found with
      | nil => exact ⟨_, .noMatch⟩
      | cons v rest =>
          cases converts : type.convert v with
          | none => exact ⟨_, .wrongFirst converts⟩
          | some x => exact ⟨_, .one converts⟩
  | many type store =>
      rcases forall₂_or_first_wrong type found with
        ⟨xs, convert⟩ | ⟨before, v, after, rfl, convert, wrong⟩
      · exact ⟨_, .many convert⟩
      · exact ⟨_, .wrongAmong convert wrong⟩

/-! ## Bindings -/

theorem resolve_of_resolves {doc : Document} {b : Binding ρ} {result : Except BindError (ρ → ρ)}
    (resolves : b.Resolves doc result) : b.resolve doc = result := by
  cases resolves with
  | refused refuses =>
      rw [resolve, Document.tryQuery_of_refuses refuses]
      rfl
  | answered accepts takes =>
      rw [resolve, Document.tryQuery_of_not_refuses accepts]
      exact storing_of_takes takes

theorem exists_resolves (doc : Document) (b : Binding ρ) : ∃ result, b.Resolves doc result := by
  rcases doc.refuses_or b.path with ⟨e, refuses⟩ | accepts
  · exact ⟨_, .refused refuses⟩
  · obtain ⟨result, takes⟩ := b.exists_takes (doc.query b.path)
    exact ⟨result, .answered accepts takes⟩

/-- The rules give one result for each binding, and it is the one computed. -/
theorem resolve_eq_iff {doc : Document} {b : Binding ρ} {result : Except BindError (ρ → ρ)} :
    b.resolve doc = result ↔ b.Resolves doc result := by
  constructor
  · rintro rfl
    obtain ⟨result, resolves⟩ := b.exists_resolves doc
    rwa [resolve_of_resolves resolves]
  · exact resolve_of_resolves

end Binding

end JsonSelect
