/-
# JsonSelect.Proofs.Json.Reading.Plain -- readers and what they leave

* `Leaves` says that a result took everything but the bytes `rest`, or that it failed.
  Results of steps in a row leave what the last one leaves (`Leaves.bind`).
* `ReadAlone` says that what follows a token makes no difference to its reader.
* `Reader.plain` is a reader without its proof that bytes were read.  The readers of
  containers satisfy plain equations (`plain_readItems` and so on).
-/
import JsonSelect.Json.Reading.Value
import JsonSelect.Except

namespace JsonSelect.Json

set_option autoImplicit false

variable {α β : Type}

/-! ## Results -/

/-- A success with this value that leaves `rest`, or a failure where there is no value. -/
def Leaves (result : Except Failure (α × List UInt8)) (rest : List UInt8) : Option α → Prop
  | some a => result = .ok (a, rest)
  | none => ∃ e, result = .error e

theorem leaves_ok (a : α) (rest : List UInt8) : Leaves (.ok (a, rest)) rest (some a) := rfl

theorem leaves_error (e : Failure) (rest : List UInt8) :
    Leaves (.error e : Except Failure (α × List UInt8)) rest none := ⟨e, rfl⟩

theorem Leaves.bind {first : Except Failure (α × List UInt8)}
    {next : α × List UInt8 → Except Failure (β × List UInt8)} {middle rest : List UInt8}
    {a? : Option α} {b? : α → Option β} (leaves : Leaves first middle a?)
    (then_ : ∀ a, a? = some a → Leaves (next (a, middle)) rest (b? a)) :
    Leaves (first >>= next) rest (a?.bind b?) := by
  cases a? with
  | none =>
      obtain ⟨e, failed⟩ := leaves
      exact ⟨e, by rw [failed]; rfl⟩
  | some a =>
      have ok : first = .ok (a, middle) := leaves
      rw [ok]
      exact then_ a rfl

/-- Working on what was read leaves the same bytes. -/
theorem Leaves.map {result : Except Failure (α × List UInt8)} {rest : List UInt8}
    {a? : Option α} (leaves : Leaves result rest a?) (f : α → β) :
    Leaves (result >>= fun (a, rest) => .ok (f a, rest)) rest (a?.map f) := by
  rw [Option.map_eq_bind]
  exact leaves.bind fun a _ => leaves_ok (f a) rest

/-- Whatever of the allowed kind follows, reading the token has one outcome and leaves what
follows. -/
def ReadAlone (read : List UInt8 → Except Failure (α × List UInt8)) (token : List UInt8)
    (allowed : List UInt8 → Prop) : Prop :=
  ∃ outcome, ∀ rest, allowed rest → Leaves (read (token ++ rest)) rest outcome

/-! ## Readers without proofs -/

def Step.plain {s : List UInt8} (step : Step s α) : α × List UInt8 := (step.found, step.rest)

def Reader.plain (read : Reader α) (s : List UInt8) : Except Failure (α × List UInt8) :=
  (read s).map Step.plain

theorem Reader.plain_of (read : List UInt8 → Except Failure (α × List UInt8))
    (shortens : Shortens read) : (Reader.of read shortens).plain = read := by
  funext s
  show (Reader.of read shortens s).map Step.plain = read s
  unfold Reader.of
  split
  · rename_i found
    exact found.symm
  · rename_i failed
    exact failed.symm

/-- To go on after a reader is to go on with what it found and left. -/
theorem plain_bind {s t : List UInt8} {read : Reader α}
    {next : Step t α → Except Failure (Step s β)}
    {plainNext : α × List UInt8 → Except Failure (β × List UInt8)}
    (same : ∀ step, (next step).map Step.plain = plainNext step.plain) :
    (read t >>= next).map Step.plain = read.plain t >>= plainNext := by
  rw [Reader.plain]
  cases read t with
  | error e => rfl
  | ok step => exact same step

theorem of_bind {s t : List UInt8} {read : List UInt8 → Except Failure (α × List UInt8)}
    {shortens : Shortens read} {next : Step t α → Except Failure (Step s β)}
    {plainNext : α × List UInt8 → Except Failure (β × List UInt8)}
    (same : ∀ step, (next step).map Step.plain = plainNext step.plain) :
    (Reader.of read shortens t >>= next).map Step.plain = read t >>= plainNext := by
  rw [plain_bind same, Reader.plain_of]

/-! ## Containers -/

section Containers

variable {inner : Reader Json} {b c : UInt8} {s t u : List UInt8}

/-! Each reader, by what stands behind the blanks. -/

theorem readMoreItems_of_close (next : skipBlanks s = Ascii.closeBracket :: t) :
    (readMoreItems inner).plain s = .ok ([], t) := by
  rw [Reader.plain, readMoreItems]
  split
  · rename_i blank
    cases next.symm.trans blank
  · rename_i found
    cases next.symm.trans found
    rfl

theorem readMoreItems_of_comma (next : skipBlanks s = Ascii.comma :: t)
    (starts : skipBlanks t = b :: u) (opens : b ≠ Ascii.closeBracket) :
    (readMoreItems inner).plain s = (do
      let (v, rest) ← inner.plain t
      let (more, rest) ← (readMoreItems inner).plain rest
      .ok (v :: more, rest)) := by
  rw [Reader.plain, readMoreItems]
  split
  · rename_i blank
    cases next.symm.trans blank
  · rename_i found
    cases next.symm.trans found
    simp only [starts, if_neg opens]
    exact plain_bind fun first => plain_bind fun more => rfl

theorem readItems_of_close (next : skipBlanks s = Ascii.closeBracket :: t) :
    (readItems inner).plain s = .ok ([], t) := by
  rw [Reader.plain, readItems]
  split
  · rename_i blank
    cases next.symm.trans blank
  · rename_i found
    cases next.symm.trans found
    rfl

theorem readItems_of_item (starts : skipBlanks s = b :: t) (opens : b ≠ Ascii.closeBracket) :
    (readItems inner).plain s = (do
      let (v, rest) ← inner.plain s
      let (more, rest) ← (readMoreItems inner).plain rest
      .ok (v :: more, rest)) := by
  rw [Reader.plain, readItems]
  split
  · rename_i blank
    cases starts.symm.trans blank
  · rename_i found
    cases starts.symm.trans found
    rw [if_neg opens]
    exact plain_bind fun first => plain_bind fun more => rfl

theorem plain_readMember :
    (readMember inner).plain s = (do
      let (key, rest) ← readString s
      match skipBlanks rest with
      | [] => .error (.after .endInObject [])
      | b :: t =>
          if b = Ascii.colon then do
            let (v, rest) ← inner.plain t
            .ok ((key, v), rest)
          else .error (.afterNext .expectedColon (b :: t))) := by
  refine of_bind fun step => ?_
  dsimp only [Step.plain]
  split
  · rename_i blank
    simp only [blank]
    rfl
  · rename_i b t found
    simp only [found]
    by_cases colon : b = Ascii.colon
    · rw [if_pos colon, if_pos colon]
      exact plain_bind fun v => rfl
    · rw [if_neg colon, if_neg colon]
      rfl

theorem readMoreMembers_of_close (next : skipBlanks s = Ascii.closeBrace :: t) :
    (readMoreMembers inner).plain s = .ok ([], t) := by
  rw [Reader.plain, readMoreMembers]
  split
  · rename_i blank
    cases next.symm.trans blank
  · rename_i found
    cases next.symm.trans found
    rfl

theorem readMoreMembers_of_comma (next : skipBlanks s = Ascii.comma :: t)
    (starts : skipBlanks t = Ascii.quote :: u) :
    (readMoreMembers inner).plain s = (do
      let (m, rest) ← (readMember inner).plain u
      let (more, rest) ← (readMoreMembers inner).plain rest
      .ok (m :: more, rest)) := by
  rw [Reader.plain, readMoreMembers]
  split
  · rename_i blank
    cases next.symm.trans blank
  · rename_i found
    cases next.symm.trans found
    dsimp only
    rw [if_neg (by decide), if_pos rfl]
    split
    · rename_i blank
      cases starts.symm.trans blank
    · rename_i found
      cases starts.symm.trans found
      rw [if_pos rfl]
      exact plain_bind fun first => plain_bind fun more => rfl

theorem readMembers_of_close (next : skipBlanks s = Ascii.closeBrace :: t) :
    (readMembers inner).plain s = .ok ([], t) := by
  rw [Reader.plain, readMembers]
  split
  · rename_i blank
    cases next.symm.trans blank
  · rename_i found
    cases next.symm.trans found
    rfl

theorem readMembers_of_member (starts : skipBlanks s = Ascii.quote :: t) :
    (readMembers inner).plain s = (do
      let (m, rest) ← (readMember inner).plain t
      let (more, rest) ← (readMoreMembers inner).plain rest
      .ok (m :: more, rest)) := by
  rw [Reader.plain, readMembers]
  split
  · rename_i blank
    cases starts.symm.trans blank
  · rename_i found
    cases starts.symm.trans found
    dsimp only
    rw [if_neg (by decide), if_pos rfl]
    exact plain_bind fun first => plain_bind fun more => rfl

end Containers

/-! ## Values -/

section Values

variable {inner : Option (Reader Json)} {value : Reader Json} {b : UInt8} {s t : List UInt8}

theorem readValueWith_of_array (starts : skipBlanks s = Ascii.openBracket :: t) :
    (readValueWith (some value)).plain s =
      (readItems value).plain t >>= fun (items, rest) => .ok (.array items, rest) := by
  rw [Reader.plain, readValueWith]
  split
  · rename_i blank
    cases starts.symm.trans blank
  · rename_i found
    cases starts.symm.trans found
    exact plain_bind fun items => rfl

theorem readValueWith_of_object (starts : skipBlanks s = Ascii.openBrace :: t) :
    (readValueWith (some value)).plain s =
      (readMembers value).plain t >>= fun (members, rest) =>
        .ok (.object (Keyed.ofList members), rest) := by
  rw [Reader.plain, readValueWith]
  split
  · rename_i blank
    cases starts.symm.trans blank
  · rename_i found
    cases starts.symm.trans found
    exact plain_bind fun members => rfl

theorem readValueWith_tooDeep (starts : skipBlanks s = b :: t)
    (opens : b = Ascii.openBracket ∨ b = Ascii.openBrace) :
    (readValueWith none).plain s = .error (.afterNext .tooDeep (b :: t)) := by
  rw [Reader.plain, readValueWith]
  split
  · rename_i blank
    cases starts.symm.trans blank
  · rename_i found
    cases starts.symm.trans found
    rcases opens with rfl | rfl <;> rfl

theorem readValueWith_of_scalar (starts : skipBlanks s = b :: t) (array : b ≠ Ascii.openBracket)
    (object : b ≠ Ascii.openBrace) :
    (readValueWith inner).plain s =
      readScalar (b :: t) >>= fun (scalar, rest) => .ok (scalar.toJson, rest) := by
  rw [Reader.plain, readValueWith]
  split
  · rename_i blank
    cases starts.symm.trans blank
  · rename_i found
    cases starts.symm.trans found
    dsimp only
    rw [if_neg array, if_neg object]
    exact of_bind fun scalar => rfl

end Values

/-! ## Whole texts -/

theorem plain_readText (s : List UInt8) :
    readText s =
      (readValue depthLimit).plain s >>= fun (v, rest) => readEnd rest >>= fun _ => .ok v := by
  rw [readText, Reader.plain]
  cases readValue depthLimit s <;> rfl

theorem readObjectText_of_object {s t : List UInt8}
    (starts : skipBlanks s = Ascii.openBrace :: t) :
    readObjectText s =
      (readMembers (readValue (depthLimit - 1))).plain t >>= fun (members, rest) =>
        readEnd rest >>= fun _ => .ok (Keyed.ofList members) := by
  rw [readObjectText, starts, Reader.plain]
  dsimp only
  rw [if_pos rfl]
  cases readMembers (readValue (depthLimit - 1)) t <;> rfl

theorem readObjectText_of_array {s t : List UInt8}
    (starts : skipBlanks s = Ascii.openBracket :: t) :
    ∃ e, readObjectText s = .error e := by
  rw [readObjectText, starts]
  exact ⟨_, rfl⟩

theorem readObjectText_of_scalar {b : UInt8} {s t : List UInt8} (starts : skipBlanks s = b :: t)
    (array : b ≠ Ascii.openBracket) (object : b ≠ Ascii.openBrace) :
    ∃ e, readObjectText s = .error e := by
  rw [readObjectText, starts]
  dsimp only
  rw [if_neg object, if_neg array]
  cases readScalar (b :: t) with
  | error e => exact ⟨e, rfl⟩
  | ok read => exact ⟨_, rfl⟩

end JsonSelect.Json
