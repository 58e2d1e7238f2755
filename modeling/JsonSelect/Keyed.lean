/-
# JsonSelect.Keyed -- entries in the order of their keys

A keyed collection is a list of entries with ascending keys, compared by the bytes of
their UTF-8 form.  There is at most one entry for a key: an entry that is inserted later
takes the place of an earlier one (`get?_insert`), and insertion keeps the order
(`ascending_insert`).
-/
import JsonSelect.Text.Utf8

namespace JsonSelect

set_option autoImplicit false

abbrev Keyed (α : Type) := List (String × α)

namespace Keyed

variable {α : Type}

/-- Whether a key stands before another one. -/
def Before (a b : String) : Prop := Utf8.bytes a < Utf8.bytes b

instance (a b : String) : Decidable (Before a b) := inferInstanceAs (Decidable (_ < _))

/-- Keys ascend, so no key comes twice. -/
def Ascending (entries : Keyed α) : Prop := entries.Pairwise fun a b => Before a.1 b.1

/-- The value of the entry with this key. -/
def get? (key : String) : Keyed α → Option α
  | [] => none
  | (k, value) :: rest => if k = key then some value else get? key rest

/-- The entries with the given one put in its place. -/
def insert (key : String) (value : α) : Keyed α → Keyed α
  | [] => [(key, value)]
  | (k, old) :: rest =>
      if k = key then (key, value) :: rest
      else if Before key k then (key, value) :: (k, old) :: rest
      else (k, old) :: insert key value rest

/-- All entries in order; of those with one key the last counts. -/
def ofList (entries : List (String × α)) : Keyed α :=
  entries.foldl (fun sorted (key, value) => insert key value sorted) []

/-! ## The order of keys -/

theorem not_before_self (a : String) : ¬ Before a a := List.lt_irrefl _

theorem Before.trans {a b c : String} (h : Before a b) (k : Before b c) : Before a c :=
  List.lt_trans h k

/-- Different keys are in one order or the other. -/
theorem before_or_before {a b : String} (h : a ≠ b) : Before a b ∨ Before b a := by
  by_cases lt : Before a b
  · exact .inl lt
  · refine .inr (Decidable.byContradiction fun gt => h ?_)
    exact Utf8.bytes_injective (List.le_antisymm gt lt)

/-! ## Insertion -/

/-- An inserted entry is found under its key, and all others as before. -/
theorem get?_insert (key k : String) (value : α) (entries : Keyed α) :
    get? k (insert key value entries) = if key = k then some value else get? k entries := by
  induction entries with
  | nil => simp [insert, get?]
  | cons e rest ih =>
      obtain ⟨k', old⟩ := e
      simp only [insert]
      split
      · rename_i same
        subst same
        simp only [get?]
        split <;> rfl
      · split
        · simp [get?]
        · rename_i different _
          simp only [get?, ih]
          split
          · rename_i same
            subst same
            rw [if_neg (Ne.symm different)]
          · rfl

theorem mem_insert {key : String} {value : α} {entries : Keyed α} {e : String × α}
    (h : e ∈ insert key value entries) : e = (key, value) ∨ e ∈ entries := by
  induction entries with
  | nil => exact .inl (List.mem_singleton.1 h)
  | cons first rest ih =>
      obtain ⟨k, old⟩ := first
      simp only [insert] at h
      split at h
      · exact (List.mem_cons.1 h).imp_right (List.mem_cons_of_mem _)
      · split at h
        · exact List.mem_cons.1 h
        · rcases List.mem_cons.1 h with same | inRest
          · exact .inr (same ▸ List.mem_cons_self)
          · exact (ih inRest).imp_right (List.mem_cons_of_mem _)

theorem ascending_insert (key : String) (value : α) {entries : Keyed α} (h : Ascending entries) :
    Ascending (insert key value entries) := by
  induction entries with
  | nil => exact List.pairwise_singleton _ _
  | cons first rest ih =>
      obtain ⟨k, old⟩ := first
      obtain ⟨after, sorted⟩ := List.pairwise_cons.1 h
      simp only [insert]
      split
      · rename_i same
        subst same
        exact List.pairwise_cons.2 ⟨after, sorted⟩
      · split
        · rename_i before
          refine List.pairwise_cons.2 ⟨fun e member => ?_, h⟩
          rcases List.mem_cons.1 member with same | inRest
          · exact same ▸ before
          · exact before.trans (after e inRest)
        · rename_i different notBefore
          refine List.pairwise_cons.2 ⟨fun e member => ?_, ih sorted⟩
          rcases mem_insert member with same | inRest
          · exact same ▸ (before_or_before different).resolve_right notBefore
          · exact after e inRest

theorem ascending_ofList (entries : List (String × α)) : Ascending (ofList entries) := by
  suffices general : ∀ sorted : Keyed α, Ascending sorted →
      Ascending (entries.foldl (fun sorted (key, value) => insert key value sorted) sorted) from
    general [] .nil
  induction entries with
  | nil => exact fun _ h => h
  | cons e rest ih => exact fun sorted h => ih _ (ascending_insert _ _ h)

theorem mem_of_mem_ofList {entries : List (String × α)} {e : String × α}
    (member : e ∈ ofList entries) : e ∈ entries := by
  suffices general : ∀ sorted : Keyed α,
      e ∈ entries.foldl (fun sorted (key, value) => insert key value sorted) sorted →
        e ∈ sorted ∨ e ∈ entries from
    (general [] member).resolve_left List.not_mem_nil
  clear member
  induction entries with
  | nil => exact fun _ member => .inl member
  | cons first rest ih =>
      intro sorted member
      rcases ih _ member with inserted | later
      · rcases mem_insert inserted with same | before
        · exact .inr (same ▸ List.mem_cons_self)
        · exact .inl before
      · exact .inr (List.mem_cons_of_mem _ later)

end Keyed

end JsonSelect
