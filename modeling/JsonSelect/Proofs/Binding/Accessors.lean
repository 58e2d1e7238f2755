/-
# JsonSelect.Proofs.Binding.Accessors -- what bindings store and what accessors read

The accessors of a document pass over the matches that are not of their type, and bindings
fail on them.  So they agree where there are none: in all matches for a field of many values,
in the first match for a field of one.

* `FieldType.OfKind`: the strings, the flags and the numbers are each the values of one kind.
* `FieldType.ReadsAlike`: what ties the two accessors of a type to its bindings.
* `Document.accessors_readAlike`: so it is for strings, flags and numbers, and each match is
  counted by the accessor of its kind, if it has one.
-/
import JsonSelect.Proofs.Binding.Run
import JsonSelect.Proofs.Number.Nearest

namespace JsonSelect

set_option autoImplicit false

variable {ρ : Type}

/-! ## Types and kinds -/

namespace FieldType

/-- The values that convert are those of this kind. -/
def OfKind (type : FieldType) (kind : Kind) : Prop :=
  ∀ v, (type.convert v).isSome = decide (v.kind = kind)

theorem string_ofKind : string.OfKind .string := by
  intro v
  cases v <;> rfl

theorem bool_ofKind : bool.OfKind .bool := by
  intro v
  cases v <;> rfl

/-- Every number has a double next to it. -/
theorem number_ofKind : number.OfKind .number := by
  intro v
  cases v with
  | number n =>
      obtain ⟨x, stored⟩ := n.exists_toDouble?
      show n.toDouble?.isSome = _
      rw [stored]
      rfl
  | _ => rfl

/-- A match is of one of the types, or of one of the kinds that have none. -/
theorem countP_isSome_convert (v : Json) :
    [string, bool, number].countP (fun type => (type.convert v).isSome) =
      if v.kind ∈ [Kind.null, .array, .object] then 0 else 1 := by
  simp only [List.countP_cons, List.countP_nil, string_ofKind v, bool_ofKind v, number_ofKind v]
  cases v.kind <;> rfl

end FieldType

/-! ## Targets that take their matches -/

namespace Target.Takes

variable {type : FieldType} {field path : String} {found : List Json} {made : ρ → ρ}

theorem isSome_of_many {store : List type.Carrier → ρ → ρ}
    (takes : (Target.many type store).Takes field path found (.ok made)) :
    ∀ v ∈ found, (type.convert v).isSome = true := by
  cases takes with
  | many convert =>
      induction convert with
      | nil => exact List.forall_mem_nil _
      | cons first others ih =>
          exact List.forall_mem_cons.2 ⟨Option.isSome_iff_exists.2 ⟨_, first⟩, ih⟩

theorem isSome_of_one {store : type.Carrier → ρ → ρ}
    (takes : (Target.one type store).Takes field path found (.ok made)) :
    ∃ v, found.head? = some v ∧ (type.convert v).isSome = true := by
  cases takes with
  | one converts => exact ⟨_, rfl, Option.isSome_iff_exists.2 ⟨_, converts⟩⟩

/-- Where the first match converts, what it converts to is stored. -/
theorem one_of_head {v : Json} {x : type.Carrier} (store : type.Carrier → ρ → ρ)
    (first : found.head? = some v) (converts : type.convert v = some x) :
    (Target.one type store).Takes field path found (.ok (store x)) := by
  cases found with
  | nil => cases first
  | cons w rest =>
      cases first
      exact .one converts

/-- Where all matches convert, what they convert to is stored. -/
theorem many_of_isSome (store : List type.Carrier → ρ → ρ)
    (every : ∀ v ∈ found, (type.convert v).isSome = true) :
    (Target.many type store).Takes field path found
      (.ok (store (found.filterMap type.convert))) := by
  refine .many ?_
  induction found with
  | nil => exact .nil
  | cons v rest ih =>
      obtain ⟨first, others⟩ := List.forall_mem_cons.1 every
      obtain ⟨x, converts⟩ := Option.isSome_iff_exists.1 first
      rw [List.filterMap_cons_some converts]
      exact .cons converts (ih others)

end Target.Takes

namespace Binding

/-- A lenient document refuses no path, so a binding depends on its matches alone. -/
theorem resolves_iff_takes {doc : Document} (lenient : doc.strict = false) {b : Binding ρ}
    {result : Except BindError (ρ → ρ)} :
    b.Resolves doc result ↔ b.target.Takes b.field b.path (doc.query b.path) result := by
  have accepts := Document.not_refuses_of_lenient lenient b.path
  constructor
  · intro resolves
    cases resolves with
    | refused refuses => exact absurd refuses (accepts _)
    | answered _ takes => exact takes
  · exact .answered accepts

theorem runAll_cons_of_takes {doc : Document} (lenient : doc.strict = false) {b : Binding ρ}
    {store : ρ → ρ} (takes : b.target.Takes b.field b.path (doc.query b.path) (.ok store))
    (rest : List (Binding ρ)) (record : ρ) :
    runAll doc (b :: rest) record = runAll doc rest (store record) :=
  runAll_append (.cons ((resolves_iff_takes lenient).2 takes) .nil) rest record

end Binding

/-! ## Accessors -/

open Binding

/-- The accessors of a type, which give `all` and `first`, read the matches as its bindings
do. -/
structure FieldType.ReadsAlike (type : FieldType) (kind : Kind) (doc : Document)
    (expression : String) (all : List type.Carrier) (first : Option type.Carrier) : Prop where
  /-- The matches of the kind are counted, each once and in order. -/
  counts : all.map some = ((doc.query expression).filter (·.kind = kind)).map type.convert
  first_eq : first = all.head?
  many_succeeds : ∀ {ρ : Type} (field : String) (store : List type.Carrier → ρ → ρ) (record : ρ),
    (runAll doc [⟨field, expression, .many type store⟩] record).failure = none ↔
      all.length = (doc.query expression).length
  many_stores : all.length = (doc.query expression).length →
    ∀ {ρ : Type} (field : String) (store : List type.Carrier → ρ → ρ) rest (record : ρ),
      runAll doc (⟨field, expression, .many type store⟩ :: rest) record =
        runAll doc rest (store all record)
  one_succeeds : ∀ {ρ : Type} (field : String) (store : type.Carrier → ρ → ρ) (record : ρ),
    (runAll doc [⟨field, expression, .one type store⟩] record).failure = none ↔
      (doc.query expression).head?.map Json.kind = some kind
  one_stores : (doc.query expression).head?.map Json.kind = some kind → ∃ x, first = some x ∧
    ∀ {ρ : Type} (field : String) (store : type.Carrier → ρ → ρ) rest (record : ρ),
      runAll doc (⟨field, expression, .one type store⟩ :: rest) record =
        runAll doc rest (store x record)

namespace FieldType

theorem OfKind.map_kind_head?_iff {type : FieldType} {kind : Kind} (ofKind : type.OfKind kind)
    {found : List Json} :
    found.head?.map Json.kind = some kind ↔
      ∃ v, found.head? = some v ∧ (type.convert v).isSome = true := by
  simp only [Option.map_eq_some_iff, ofKind _, decide_eq_true_iff]

/-- Accessors that take what converts read as the bindings do. -/
theorem OfKind.readsAlike {type : FieldType} {kind : Kind} (ofKind : type.OfKind kind)
    {doc : Document} (lenient : doc.strict = false) (expression : String) :
    type.ReadsAlike kind doc expression ((doc.query expression).filterMap type.convert)
      ((doc.query expression).findSome? type.convert) where
  counts := by
    rw [List.map_filterMap_some_eq_filter_map_isSome, List.filter_map]
    congr 1
    exact List.filter_congr fun v _ => ofKind v
  first_eq := List.head?_filterMap.symm
  many_succeeds field store record := by
    rw [failure_runAll_eq_none_iff, List.forall_mem_singleton, List.filterMap_length_eq_length]
    simp only [resolves_iff_takes lenient]
    constructor
    · rintro ⟨made, takes⟩
      exact takes.isSome_of_many
    · intro every
      exact ⟨_, .many_of_isSome store every⟩
  many_stores counted _ field store rest record := by
    rw [List.filterMap_length_eq_length] at counted
    exact runAll_cons_of_takes lenient (.many_of_isSome store counted) rest record
  one_succeeds field store record := by
    rw [failure_runAll_eq_none_iff, List.forall_mem_singleton, ofKind.map_kind_head?_iff]
    simp only [resolves_iff_takes lenient]
    constructor
    · rintro ⟨made, takes⟩
      exact takes.isSome_of_one
    · rintro ⟨v, first, isSome⟩
      obtain ⟨x, converts⟩ := Option.isSome_iff_exists.1 isSome
      exact ⟨_, .one_of_head store first converts⟩
  one_stores kinds := by
    obtain ⟨v, first, isSome⟩ := ofKind.map_kind_head?_iff.1 kinds
    obtain ⟨x, converts⟩ := Option.isSome_iff_exists.1 isSome
    obtain ⟨others, found⟩ := List.head?_eq_some_iff.1 first
    refine ⟨x, by rw [found, List.findSome?_cons, converts], ?_⟩
    intro _ field store rest record
    exact runAll_cons_of_takes lenient (.one_of_head store first converts) rest record

/-- The accessor of all matches counts those of its kind. -/
theorem ReadsAlike.length_eq {type : FieldType} {kind : Kind} {doc : Document}
    {expression : String} {all : List type.Carrier} {first : Option type.Carrier}
    (alike : type.ReadsAlike kind doc expression all first) :
    all.length = (doc.query expression).countP (·.kind = kind) := by
  have lengths := congrArg List.length alike.counts
  rwa [List.length_map, List.length_map, ← List.countP_eq_length_filter] at lengths

end FieldType

/-- Every value is of one kind. -/
theorem Json.countP_kinds (found : List Json) :
    found.countP (·.kind = .string) + found.countP (·.kind = .bool) +
        found.countP (·.kind = .number) +
        found.countP (·.kind ∈ [Kind.null, .array, .object]) = found.length := by
  induction found with
  | nil => rfl
  | cons v rest ih =>
      simp only [List.countP_cons, List.length_cons, ← ih]
      cases v.kind <;> simp <;> omega

/-- **Bindings and accessors agree.**  In a lenient document, for strings, flags and numbers: a
field of many values succeeds if the accessor of all matches gives as many values as there are
matches, and stores these; a field of one succeeds if the first match is of the kind, and stores
what the accessor of the first gives, which is the first of all.  Each match is counted by
one of the three accessors, or by none if it is null, an array or an object. -/
theorem Document.accessors_readAlike {doc : Document} (lenient : doc.strict = false)
    (expression : String) :
    FieldType.string.ReadsAlike .string doc expression (doc.strings expression)
        (doc.string? expression) ∧
      FieldType.bool.ReadsAlike .bool doc expression (doc.bools expression)
        (doc.bool? expression) ∧
      FieldType.number.ReadsAlike .number doc expression (doc.doubles expression)
        (doc.double? expression) ∧
      (∀ v ∈ doc.query expression,
        [FieldType.string, .bool, .number].countP (fun type => (type.convert v).isSome) =
          if v.kind ∈ [Kind.null, .array, .object] then 0 else 1) ∧
      (doc.strings expression).length + (doc.bools expression).length +
          (doc.doubles expression).length +
          (doc.query expression).countP (·.kind ∈ [Kind.null, .array, .object]) =
        (doc.query expression).length := by
  have strings := FieldType.string_ofKind.readsAlike lenient expression
  have bools := FieldType.bool_ofKind.readsAlike lenient expression
  have numbers := FieldType.number_ofKind.readsAlike lenient expression
  refine ⟨strings, bools, numbers, fun v _ => FieldType.countP_isSome_convert v, ?_⟩
  have counted := Json.countP_kinds (doc.query expression)
  rwa [← strings.length_eq, ← bools.length_eq, ← numbers.length_eq] at counted

namespace Example

/-- A flag stands between two tags. -/
def tagged : Document :=
  ⟨⟨[("tags", .array [.string "a", .bool true, .string "b"])], by decide +kernel⟩, false⟩

def allTags : Binding (List String) := ⟨"tags", "$.tags[*]", .many .string fun xs _ => xs⟩

def firstTag : Binding (List String) := ⟨"tag", "$.tags[*]", .one .string fun x tags => x :: tags⟩

theorem tags_with_a_flag :
    tagged.strict = false ∧
      tagged.strings "$.tags[*]" = ["a", "b"] ∧ tagged.string? "$.tags[*]" = some "a" ∧
      (∀ tags, (Binding.runAll tagged [allTags] tags).failure ≠ none) ∧
      (∀ tags, Binding.runAll tagged [firstTag] tags = ⟨"a" :: tags, none⟩) := by
  have strings : tagged.strings "$.tags[*]" = ["a", "b"] := by decide +kernel
  have string : tagged.string? "$.tags[*]" = some "a" := by decide +kernel
  have three : (tagged.query "$.tags[*]").length = 3 := by decide +kernel
  have kind : (tagged.query "$.tags[*]").head?.map Json.kind = some .string := by decide +kernel
  have lenient : tagged.strict = false := rfl
  obtain ⟨alike, -, -, -, -⟩ := Document.accessors_readAlike lenient "$.tags[*]"
  refine ⟨lenient, strings, string, fun tags completed => ?_, fun tags => ?_⟩
  · have counted := (alike.many_succeeds _ _ _).1 completed
    rw [strings, three] at counted
    exact absurd counted (by decide)
  · obtain ⟨x, first, stores⟩ := alike.one_stores kind
    cases string.symm.trans first
    exact stores _ _ [] tags

end Example

end JsonSelect
