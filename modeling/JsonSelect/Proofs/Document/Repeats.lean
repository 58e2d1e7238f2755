/-
# JsonSelect.Proofs.Document.Repeats -- equal matches that are kept

Matches are made unique by their texts, and the two zeros have different texts.  So of equal
matches only those are kept that differ in the sign of a zero.

* `Document.unique_query_differs`: matches that are kept are not equal, unless they have
  different zeros at some location.
* `Example.both_zeros_kept`: such matches are indeed kept.
-/
import JsonSelect.Document
import JsonSelect.Proofs.Json.Equality
import JsonSelect.Proofs.Selection.Places
import JsonSelect.Proofs.Selection.Unique

namespace JsonSelect

set_option autoImplicit false

namespace Document

variable {doc : Document} {expression : String}

/-- Every match stands somewhere in the document. -/
theorem exists_at?_of_mem_query {v : Json} (found : v ∈ doc.query expression) :
    ∃ l, doc.root.at? l = some v := by
  rw [query, run, ← Path.map_value_places] at found
  obtain ⟨p, place, rfl⟩ := List.mem_map.1 found
  exact ⟨p.location, Path.at?_of_mem_places doc.root_ordered place⟩

/-- What holds of all matches holds of those that are kept, which differ. -/
theorem pairwise_unique_query {R : Json → Json → Prop}
    (differ : ∀ v ∈ doc.query expression, ∀ w ∈ doc.query expression, v ≠ w → R v w) :
    (Matches.unique (doc.query expression)).Pairwise R := by
  refine (Matches.nodup_uniqueSince [] _).imp_of_mem fun {v w} kept kept' different => ?_
  exact differ v (Matches.mem_uniqueSince_iff.1 kept).1 w (Matches.mem_uniqueSince_iff.1 kept').1
    different

/-- **Equal matches are kept only if they differ in the sign of a zero.**  So in a document
without a negative zero no two matches that are kept are equal. -/
theorem unique_query_differs (doc : Document) (expression : String) :
    ((Matches.unique (doc.query expression)).Pairwise fun v w =>
        v.Equal w → ∃ l, v.ZerosAt w l) ∧
      (doc.root.EveryNumber (fun n => n ≠ .double ⟨true, .zero⟩) →
        (Matches.unique (doc.query expression)).Pairwise fun v w => ¬ v.Equal w) := by
  have differ (v : Json) (found : v ∈ doc.query expression) (w : Json)
      (found' : w ∈ doc.query expression) (different : v ≠ w) (equal : v.Equal w) :
      ∃ l, v.ZerosAt w l := by
    obtain ⟨l, here⟩ := exists_at?_of_mem_query found
    obtain ⟨l', there⟩ := exists_at?_of_mem_query found'
    exact (Json.Equal.eq_or_zerosAt v (doc.root_ordered.of_at? here)
      (doc.root_ordered.of_at? there) equal).resolve_left different
  refine ⟨pairwise_unique_query differ, fun positive => pairwise_unique_query ?_⟩
  have unsigned {v : Json} (found : v ∈ doc.query expression) {l : Location} {s : Bool}
      (zero : v.at? l = some (.number (.double ⟨s, .zero⟩))) : s = false := by
    obtain ⟨m, inside⟩ := exists_at?_of_mem_query found
    cases s with
    | false => rfl
    | true => exact absurd rfl ((positive.of_at? inside).of_at? zero)
  intro v found w found' different equal
  obtain ⟨l, ⟨s, x⟩, ⟨t, y⟩, here, there, rfl, rfl, signs⟩ :=
    differ v found w found' different equal
  exact signs ((unsigned found here).trans (unsigned found' there).symm)

end Document

namespace Example

open Json

/-- The member `"a"` with an array of both zeros. -/
def zeros : List UInt8 :=
  [Ascii.openBrace, Ascii.quote, 0x61, Ascii.quote, Ascii.colon, Ascii.openBracket, Ascii.zero,
    Ascii.point, Ascii.zero, Ascii.comma, Ascii.minus, Ascii.zero, Ascii.point, Ascii.zero,
    Ascii.closeBracket, Ascii.closeBrace]

/-- Of the zeros in the array both are found, and both are kept. -/
theorem exists_zeros : ∃ doc, Document.decode zeros = .ok doc ∧
    Matches.unique (doc.query "$.a[*]") =
      [.number (.double ⟨false, .zero⟩), .number (.double ⟨true, .zero⟩)] := by
  have kept : (Document.decode zeros).toOption.any (fun doc =>
      (Matches.unique (doc.query "$.a[*]")).map Json.compact =
        [.number (.double ⟨false, .zero⟩), .number (.double ⟨true, .zero⟩)].map Json.compact) =
      true := by decide +kernel
  obtain ⟨doc, decoded, kept⟩ := (Option.any_eq_true _ _).1 kept
  exact ⟨doc, toOption_eq_some_iff.1 decoded,
    List.map_injective_iff.2 Json.compact_injective (of_decide_eq_true kept)⟩

theorem both_zeros_kept :
    ¬ ∀ input doc expression, Document.decode input = .ok doc →
      (Matches.unique (doc.query expression)).Pairwise fun v w => ¬ v.Equal w := by
  intro apart
  obtain ⟨doc, decoded, kept⟩ := exists_zeros
  have differ := apart zeros doc "$.a[*]" decoded
  rw [kept] at differ
  exact List.rel_of_pairwise_cons differ List.mem_cons_self (.inr ⟨rfl, rfl⟩)

/-- The two that are kept are equal and differ in their signs. -/
theorem zeros_differ :
    ∃ (doc : Document) (v w : Json), Document.decode zeros = .ok doc ∧
      Matches.unique (doc.query "$.a[*]") = [v, w] ∧ v.Equal w ∧ ∃ l, v.ZerosAt w l := by
  obtain ⟨doc, decoded, kept⟩ := exists_zeros
  obtain ⟨differ, -⟩ := Document.unique_query_differs doc "$.a[*]"
  rw [kept] at differ
  have equal : (number (.double ⟨false, .zero⟩)).Equal (.number (.double ⟨true, .zero⟩)) :=
    .inr ⟨rfl, rfl⟩
  exact ⟨doc, _, _, decoded, kept, equal, List.rel_of_pairwise_cons differ List.mem_cons_self equal⟩

end Example

end JsonSelect
