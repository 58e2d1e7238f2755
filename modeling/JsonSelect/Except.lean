/-
# JsonSelect.Except -- results of steps that may fail

Where a result of several steps comes from, read backwards through binding and through a
translation of the failures.
-/
namespace JsonSelect

set_option autoImplicit false

variable {ε ε' α β : Type}

@[simp] theorem ok_bind (a : α) (next : α → Except ε β) : .ok a >>= next = next a := rfl

@[simp] theorem error_bind (e : ε) (next : α → Except ε β) :
    .error e >>= next = (.error e : Except ε β) := rfl

theorem toOption_eq_some_iff {result : Except ε α} {a : α} :
    result.toOption = some a ↔ result = .ok a := by
  cases result <;> simp [Except.toOption]

/-- A success of two steps in a row is a success of each. -/
theorem bind_eq_ok_iff {first : Except ε α} {next : α → Except ε β} {b : β} :
    first >>= next = .ok b ↔ ∃ a, first = .ok a ∧ next a = .ok b := by
  constructor
  · intro both
    cases first with
    | error e => cases both
    | ok a => exact ⟨a, rfl, both⟩
  · rintro ⟨a, rfl, second⟩
    exact second

/-- The failure of two steps in a row is that of the first one that fails. -/
theorem bind_eq_error_iff {first : Except ε α} {next : α → Except ε β} {e : ε} :
    first >>= next = .error e ↔
      first = .error e ∨ ∃ a, first = .ok a ∧ next a = .error e := by
  cases first with
  | error e' =>
      rw [error_bind, Except.error.injEq, Except.error.injEq]
      constructor
      · exact .inl
      · rintro (same | ⟨_, same, -⟩)
        · exact same
        · cases same
  | ok a =>
      rw [ok_bind]
      constructor
      · exact fun second => .inr ⟨a, rfl, second⟩
      · rintro (same | ⟨_, same, second⟩)
        · cases same
        · cases same
          exact second

/-- A result is a success if it is no failure. -/
theorem exists_ok_iff {result : Except ε α} : (∃ a, result = .ok a) ↔ ∀ e, result ≠ .error e := by
  cases result with
  | error e =>
      constructor
      · rintro ⟨a, same⟩
        cases same
      · exact fun noError => absurd rfl (noError e)
  | ok a => exact ⟨fun _ => nofun, fun _ => ⟨a, rfl⟩⟩

/-- A success that was worked on was a success before. -/
theorem map_eq_ok_iff {f : α → β} {result : Except ε α} {b : β} :
    result.map f = .ok b ↔ ∃ a, result = .ok a ∧ f a = b := by
  cases result with
  | error e =>
      show Except.error e = .ok b ↔ _
      exact ⟨nofun, fun ⟨a, same, _⟩ => nomatch same⟩
  | ok a =>
      show Except.ok (f a) = .ok b ↔ _
      rw [Except.ok.injEq]
      exact ⟨fun same => ⟨a, rfl, same⟩, fun ⟨_, same, value⟩ => by cases same; exact value⟩

/-- Translating the failures leaves the successes as they are. -/
theorem mapError_eq_ok_iff {translate : ε → ε'} {result : Except ε α} {a : α} :
    result.mapError translate = .ok a ↔ result = .ok a := by
  cases result with
  | error e =>
      show Except.error (translate e) = .ok a ↔ _
      exact ⟨nofun, nofun⟩
  | ok b =>
      show Except.ok b = .ok a ↔ _
      rw [Except.ok.injEq, Except.ok.injEq]

/-- Working on a success leaves the failures as they are. -/
theorem map_eq_error_iff {f : α → β} {result : Except ε α} {e : ε} :
    result.map f = .error e ↔ result = .error e := by
  cases result with
  | error e' =>
      show Except.error e' = .error e ↔ _
      rw [Except.error.injEq, Except.error.injEq]
  | ok a =>
      show Except.ok (f a) = .error e ↔ _
      exact ⟨nofun, nofun⟩

/-- A failure that was translated was a failure before. -/
theorem mapError_eq_error_iff {translate : ε → ε'} {result : Except ε α} {e : ε'} :
    result.mapError translate = .error e ↔ ∃ e', result = .error e' ∧ translate e' = e := by
  cases result with
  | error e' =>
      show Except.error (translate e') = .error e ↔ _
      rw [Except.error.injEq]
      exact ⟨fun same => ⟨e', rfl, same⟩, fun ⟨_, same, value⟩ => by cases same; exact value⟩
  | ok a =>
      show Except.ok a = .error e ↔ _
      exact ⟨nofun, fun ⟨_, same, _⟩ => nomatch same⟩

/-! ## Outcomes -/

/-- A success with this value, or a failure where there is none. -/
def Yields (result : Except ε α) : Option α → Prop
  | some a => result = .ok a
  | none => ∃ e, result = .error e

theorem Yields.mapError {result : Except ε α} {outcome : Option α} (yields : Yields result outcome)
    (translate : ε → ε') : Yields (result.mapError translate) outcome := by
  cases outcome with
  | none =>
      obtain ⟨e, failed⟩ := yields
      exact ⟨translate e, by rw [failed]; rfl⟩
  | some a => exact mapError_eq_ok_iff.2 yields

end JsonSelect
