/-
# JsonSelect.Proofs.Json.Reading.Token -- a token is read alone

The reader of a token takes exactly its bytes, and what it makes of them does not depend on
what follows, as long as a numeral does not go on there.

* `scalar?` is what a token means, and `readScalar_token` reads it; `key?` is what a key
  means, and `readString_key` reads it.
-/
import JsonSelect.Proofs.Json.Reading.Numeral
import JsonSelect.Proofs.Json.Reading.Text

namespace JsonSelect.Json

set_option autoImplicit false

/-! ## From the first byte on -/

theorem readScalar_word {b : UInt8} {word : List UInt8} {value : Scalar}
    (found : word? b = some (word, value)) (rest : List UInt8) :
    readScalar (b :: word ++ rest) = .ok (value, rest) := by
  have read : readWord word (word ++ rest) = .ok ((), rest) := by
    -- `found` is about the whole word and would be carried through the induction.
    clear found
    induction word with
    | nil => rfl
    | cons w word ih => rw [List.cons_append, readWord, if_pos rfl, ih]
  rw [List.cons_append, readScalar, found]
  dsimp only
  rw [read, ok_bind]

theorem readScalar_quote (s : List UInt8) :
    readScalar (Ascii.quote :: s) =
      readString s >>= fun (text, rest) => .ok (.string text, rest) := by
  rw [readScalar, show word? Ascii.quote = none from rfl]
  dsimp only
  rw [if_pos rfl]

theorem readScalar_minus (s : List UInt8) :
    readScalar (Ascii.minus :: s) =
      readUnsigned true s >>= fun (n, rest) => .ok (.number n, rest) := by
  rw [readScalar, show word? Ascii.minus = none from rfl]
  dsimp only
  rw [if_neg (by decide), if_pos rfl]

theorem readScalar_digit {d : UInt8} (digit : isDigit d = true) (s : List UInt8) :
    readScalar (d :: s) =
      readUnsigned false (d :: s) >>= fun (n, rest) => .ok (.number n, rest) := by
  have noWord : word? d = none := by
    rw [word?, if_neg (digit_ne digit rfl), if_neg (digit_ne digit rfl),
      if_neg (digit_ne digit rfl)]
  rw [readScalar, noWord]
  dsimp only
  rw [if_neg (digit_ne digit rfl), if_neg (digit_ne digit rfl), if_pos digit]

theorem IsUnsigned.exists_digit {s : List UInt8} (unsigned : IsUnsigned s) :
    ∃ d t, s = d :: t ∧ isDigit d = true := by
  obtain ⟨isWhole, _, _⟩ := unsigned
  cases isWhole with
  | zero => exact ⟨_, _, rfl, rfl⟩
  | digits digit => exact ⟨_, _, rfl, digit⟩

theorem readAlone_numeral {token : List UInt8} (numeral : IsNumeral token) :
    ∃ outcome : Option Number, ∀ rest, EndsNumeral rest →
      Leaves (readScalar (token ++ rest)) rest (outcome.map .number) := by
  cases numeral with
  | positive unsigned =>
      obtain ⟨outcome, read⟩ := readAlone_readUnsigned false unsigned
      obtain ⟨d, t, rfl, digit⟩ := unsigned.exists_digit
      refine ⟨outcome, fun rest ends => ?_⟩
      rw [List.cons_append, readScalar_digit digit]
      exact (read rest ends).map _
  | negative unsigned =>
      obtain ⟨outcome, read⟩ := readAlone_readUnsigned true unsigned
      refine ⟨outcome, fun rest ends => ?_⟩
      rw [List.cons_append, readScalar_minus]
      exact (read rest ends).map _

theorem readAlone_readScalar {token : List UInt8} (scalar : IsScalar token) :
    ReadAlone readScalar token EndsNumeral := by
  cases scalar with
  | wordNull => exact ⟨some .null, fun rest _ => readScalar_word rfl rest⟩
  | wordTrue => exact ⟨some (.bool true), fun rest _ => readScalar_word rfl rest⟩
  | wordFalse => exact ⟨some (.bool false), fun rest _ => readScalar_word rfl rest⟩
  | string string =>
      obtain ⟨content⟩ := string
      obtain ⟨outcome, read⟩ := readAlone_readString content
      refine ⟨outcome.map .string, fun rest _ => ?_⟩
      rw [List.cons_append, readScalar_quote, List.append_assoc]
      exact (read rest).map _
  | numeral numeral =>
      obtain ⟨outcome, read⟩ := readAlone_numeral numeral
      exact ⟨outcome.map .number, read⟩

/-- What a token means, if it means anything. -/
def scalar? (token : List UInt8) : Option Scalar :=
  match readScalar token with
  | .ok (value, []) => some value
  | _ => none

theorem scalar?_of_leaves {token : List UInt8} {outcome : Option Scalar}
    (leaves : Leaves (readScalar token) [] outcome) : scalar? token = outcome := by
  rw [scalar?]
  cases outcome with
  | none =>
      obtain ⟨e, failed⟩ := leaves
      rw [failed]
  | some value =>
      have read : readScalar token = .ok (value, []) := leaves
      rw [read]

theorem scalar?_word {b : UInt8} {word : List UInt8} {value : Scalar}
    (found : word? b = some (word, value)) : scalar? (b :: word) = some value := by
  have read := readScalar_word found []
  rw [List.append_nil] at read
  exact scalar?_of_leaves read

/-- A numeral that is read to the end is the number with the sign. -/
theorem leaves_readUnsigned {s : List UInt8} {n : Numeral} (read : readNumeral s = .ok (n, []))
    (negative : Bool) : Leaves (readUnsigned negative s) [] (n.number? negative) := by
  rw [readUnsigned, read, ok_bind]
  dsimp only
  cases n.number? negative with
  | none => exact leaves_error _ _
  | some m => exact leaves_ok m []

theorem scalar?_unsigned {s : List UInt8} {n : Numeral} (unsigned : IsUnsigned s)
    (read : readNumeral s = .ok (n, [])) : scalar? s = (n.number? false).map .number := by
  have leaves := (leaves_readUnsigned read false).map Scalar.number
  obtain ⟨d, t, rfl, digit⟩ := unsigned.exists_digit
  apply scalar?_of_leaves
  rw [readScalar_digit digit]
  exact leaves

theorem scalar?_minus {s : List UInt8} {n : Numeral} (read : readNumeral s = .ok (n, [])) :
    scalar? (Ascii.minus :: s) = (n.number? true).map .number := by
  apply scalar?_of_leaves
  rw [readScalar_minus]
  exact (leaves_readUnsigned read true).map Scalar.number

theorem readScalar_token {token rest : List UInt8} (scalar : IsScalar token)
    (ends : EndsNumeral rest) : Leaves (readScalar (token ++ rest)) rest (scalar? token) := by
  obtain ⟨outcome, read⟩ := readAlone_readScalar scalar
  have alone := read [] endsNumeral_nil
  rw [List.append_nil] at alone
  exact scalar?_of_leaves alone ▸ read rest ends

/-- A numeral means a number, if it means anything. -/
theorem exists_scalar?_numeral {token : List UInt8} (numeral : IsNumeral token) :
    ∃ outcome : Option Number, scalar? token = outcome.map .number := by
  obtain ⟨outcome, read⟩ := readAlone_numeral numeral
  have alone := read [] endsNumeral_nil
  rw [List.append_nil] at alone
  exact ⟨outcome, scalar?_of_leaves alone⟩

/-- What a key means. -/
def key? (token : List UInt8) : Option String :=
  match scalar? token with
  | some (.string key) => some key
  | _ => none

theorem readString_key {s : List UInt8} (content : IsContent s) (rest : List UInt8) :
    Leaves (readString (s ++ Ascii.quote :: rest)) rest
      (key? (Ascii.quote :: (s ++ [Ascii.quote]))) := by
  obtain ⟨outcome, read⟩ := readAlone_readString content
  have scalar : scalar? (Ascii.quote :: (s ++ [Ascii.quote])) = outcome.map .string := by
    refine scalar?_of_leaves ?_
    rw [readScalar_quote]
    exact (read []).map _
  have same : key? (Ascii.quote :: (s ++ [Ascii.quote])) = outcome := by
    rw [key?, scalar]
    cases outcome <;> rfl
  exact same ▸ read rest

end JsonSelect.Json
