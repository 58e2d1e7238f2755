/-
# JsonSelect.Proofs.Document.Refusal -- which expressions a document refuses

A strict document refuses the expressions that do not compile strictly, a lenient one
none.  What is not refused is answered with the matches of the lenient query, whatever
the document.

* `Document.tryQuery_eq_ok_iff`, `Document.tryQuery_eq_error_iff`: the two answers.
-/
import JsonSelect.Document
import JsonSelect.Proofs.Path.Strict

namespace JsonSelect

set_option autoImplicit false

namespace Document

/-- The document is strict, and this is why the expression does not compile strictly. -/
def Refuses (doc : Document) (expression : String) (e : UnexpectedChar) : Prop :=
  doc.strict = true ∧ Path.compileStrict expression = .error e

theorem not_refuses_of_lenient {doc : Document} (lenient : doc.strict = false)
    (expression : String) (e : UnexpectedChar) : ¬ doc.Refuses expression e := by
  rintro ⟨strict, -⟩
  rw [lenient] at strict
  cases strict

theorem tryQuery_of_refuses {doc : Document} {expression : String} {e : UnexpectedChar}
    (refuses : doc.Refuses expression e) : doc.tryQuery expression = .error (.unexpected e) := by
  obtain ⟨strict, refused⟩ := refuses
  rw [tryQuery, Path.compileAs, if_pos strict, refused]
  rfl

/-- Strict or not, the matches are those of the lenient path. -/
theorem tryQuery_of_not_refuses {doc : Document} {expression : String}
    (accepts : ∀ e, ¬ doc.Refuses expression e) :
    doc.tryQuery expression = .ok (doc.query expression) := by
  by_cases strict : doc.strict = true
  · cases compiled : Path.compileStrict expression with
    | error e => exact absurd ⟨strict, compiled⟩ (accepts e)
    | ok path =>
        rw [tryQuery, Path.compileAs, if_pos strict, compiled,
          Path.eq_compile_of_compileStrict compiled]
        rfl
  · rw [tryQuery, Path.compileAs, if_neg strict]
    rfl

/-- A document refuses an expression, or it answers it. -/
theorem refuses_or (doc : Document) (expression : String) :
    (∃ e, doc.Refuses expression e) ∨ ∀ e, ¬ doc.Refuses expression e := by
  by_cases refused : ∃ e, doc.Refuses expression e
  · exact .inl refused
  · exact .inr fun e refuses => refused ⟨e, refuses⟩

theorem tryQuery_eq_ok_iff {doc : Document} {expression : String} {found : List Json} :
    doc.tryQuery expression = .ok found ↔
      (∀ e, ¬ doc.Refuses expression e) ∧ found = doc.query expression := by
  rcases doc.refuses_or expression with ⟨e, refuses⟩ | accepts
  · rw [tryQuery_of_refuses refuses]
    exact ⟨nofun, fun h => absurd refuses (h.1 e)⟩
  · rw [tryQuery_of_not_refuses accepts, Except.ok.injEq]
    exact ⟨fun same => ⟨accepts, same.symm⟩, fun h => h.2.symm⟩

theorem tryQuery_eq_error_iff {doc : Document} {expression : String} {error : QueryError} :
    doc.tryQuery expression = .error error ↔
      ∃ e, doc.Refuses expression e ∧ error = .unexpected e := by
  rcases doc.refuses_or expression with ⟨e, refuses⟩ | accepts
  · rw [tryQuery_of_refuses refuses, Except.error.injEq]
    constructor
    · exact fun same => ⟨e, refuses, same.symm⟩
    · rintro ⟨e', refuses', rfl⟩
      cases refuses.2.symm.trans refuses'.2
      rfl
  · rw [tryQuery_of_not_refuses accepts]
    exact ⟨nofun, fun ⟨e, refuses, _⟩ => absurd refuses (accepts e)⟩

end Document

end JsonSelect
