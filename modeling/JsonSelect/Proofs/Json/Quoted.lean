/-
# JsonSelect.Proofs.Json.Quoted -- quoted strings mean themselves

Every character of a string is written as bytes that may stand in a string and are read back
to the bytes of the character.

* `isString_quoted`: a quoted string is in the grammar of strings.
* `key?_quoted`, `scalar?_quoted`: it means the string that was quoted.
-/
import JsonSelect.Json.Rendering
import JsonSelect.Proofs.Json.Reading.Token

namespace JsonSelect.Json

set_option autoImplicit false

/-- Bytes that may go before any content and stand for `meant`. -/
structure Writes (bytes meant : List UInt8) : Prop where
  content : ∀ {s}, IsContent s → IsContent (bytes ++ s)
  read : ∀ s, readContent (bytes ++ s) =
    readContent s >>= fun (more, rest) => .ok (meant ++ more, rest)

namespace Writes

theorem nil : Writes [] [] where
  content := id
  read s := by
    show readContent s = _
    cases readContent s <;> rfl

theorem append {bytes bytes' meant meant' : List UInt8} (first : Writes bytes meant)
    (second : Writes bytes' meant') : Writes (bytes ++ bytes') (meant ++ meant') where
  content isContent := by
    rw [List.append_assoc]
    exact first.content (second.content isContent)
  read s := by
    rw [List.append_assoc, first.read, second.read]
    cases readContent s with
    | error e => rfl
    | ok found =>
        simp only [ok_bind]
        rw [List.append_assoc]

theorem plain {b : UInt8} (notQuote : b ≠ Ascii.quote) (notBackslash : b ≠ Ascii.backslash)
    (notControl : ¬ b < 0x20) : Writes [b] [b] where
  content := .plain notQuote notBackslash notControl
  read := readContent_plain notQuote notBackslash notControl

theorem letter {b c : UInt8} (isLetter : b ∈ escapeLetters) (found : letterEscape? b = some c) :
    Writes [Ascii.backslash, b] [c] where
  content := .letter isLetter
  read s := by
    obtain ⟨_, _, notU⟩ := exists_letterEscape? isLetter
    exact readContent_escape (readEscape_of_letter found notU s)

theorem codePoint {a b c d : UInt8} {n : Nat} (digits : ∀ h ∈ [a, b, c, d], IsHexDigit h)
    (hex : hexNumber? a b c d = some n) (small : n < 0x20) :
    Writes [Ascii.backslash, Ascii.lowerU, a, b, c, d] (String.utf8EncodeChar (Char.ofNat n)) where
  content := .codePoint digits
  read s := by
    have whole : isTrailingSurrogate n = false ∧ isLeadingSurrogate n = false := by
      simp only [isTrailingSurrogate, isLeadingSurrogate, Bool.and_eq_false_iff,
        decide_eq_false_iff_not]
      omega
    have point : readCodePoint (a :: b :: c :: d :: s) = .ok (n, s) := by
      simp [readCodePoint, readHex, hex, whole]
    refine readContent_escape ?_
    show readEscape (Ascii.lowerU :: a :: b :: c :: d :: s) = _
    rw [readEscape, if_pos rfl, point, ok_bind]

/-- Bytes that need no escape stand for themselves. -/
theorem self {bytes : List UInt8}
    (plain : ∀ b ∈ bytes, b.toNat ≠ 0x22 ∧ b.toNat ≠ 0x5c ∧ 0x20 ≤ b.toNat) :
    Writes bytes bytes := by
  induction bytes with
  | nil => exact nil
  | cons b bytes ih =>
      obtain ⟨⟨notQuote, notBackslash, notControl⟩, more⟩ := List.forall_mem_cons.1 plain
      have first : Writes [b] [b] := by
        refine Writes.plain ?_ ?_ ?_
        · rintro rfl
          exact notQuote rfl
        · rintro rfl
          exact notBackslash rfl
        · rw [UInt8.lt_iff_toNat_lt]
          exact Nat.not_lt.2 notControl
      exact first.append (ih more)

end Writes

/-! ## Characters -/

/-- No byte of a character is a quote, a backslash or a control character, unless the
character is. -/
theorem utf8EncodeChar_plain {c : Char} (notQuote : c ≠ '"') (notBackslash : c ≠ '\\')
    (notControl : ¬ c.toNat < 0x20) :
    ∀ b ∈ String.utf8EncodeChar c, b.toNat ≠ 0x22 ∧ b.toNat ≠ 0x5c ∧ 0x20 ≤ b.toNat := by
  have other {n : Nat} (different : c ≠ Char.ofNat n) : c.toNat ≠ n := by
    rintro rfl
    exact different c.ofNat_toNat.symm
  have byte {k : Nat} (below : k < 0x100) : (UInt8.ofNat k).toNat = k := Nat.mod_eq_of_lt below
  have high {k : Nat} (least : 0x80 ≤ k) (below : k < 0x100) :
      (UInt8.ofNat k).toNat ≠ 0x22 ∧ (UInt8.ofNat k).toNat ≠ 0x5c ∧
        0x20 ≤ (UInt8.ofNat k).toNat := by
    rw [byte below]
    omega
  fun_cases String.utf8EncodeChar c with
  | case1 v low =>
      have quote : v ≠ 0x22 := other notQuote
      have backslash : v ≠ 0x5c := other notBackslash
      have control : ¬ v < 0x20 := notControl
      refine List.forall_mem_singleton.2 ?_
      rw [byte (by omega)]
      omega
  | case2 v =>
      simp only [List.forall_mem_cons]
      exact ⟨high (by omega) (by omega), high (by omega) (by omega), List.forall_mem_nil _⟩
  | case3 v =>
      simp only [List.forall_mem_cons]
      exact ⟨high (by omega) (by omega), high (by omega) (by omega), high (by omega) (by omega),
        List.forall_mem_nil _⟩
  | case4 v =>
      simp only [List.forall_mem_cons]
      exact ⟨high (by omega) (by omega), high (by omega) (by omega), high (by omega) (by omega),
        high (by omega) (by omega), List.forall_mem_nil _⟩

/-- The two digits of a control character. -/
theorem hexPair_digits : ∀ n < 0x20,
    ∃ a b, Utf8.encode (hexPair n) = [a, b] ∧ hexNumber? 0x30 0x30 a b = some n ∧
      ∀ h ∈ [0x30, 0x30, a, b], IsHexDigit h := by
  have all : ∀ n < 0x20, Utf8.encode (hexPair n) =
        [UInt8.ofNat (n / 16).digitChar.toNat, UInt8.ofNat (n % 16).digitChar.toNat] ∧
      hexNumber? 0x30 0x30 (UInt8.ofNat (n / 16).digitChar.toNat)
        (UInt8.ofNat (n % 16).digitChar.toNat) = some n ∧
      ∀ h ∈ [0x30, 0x30, UInt8.ofNat (n / 16).digitChar.toNat,
        UInt8.ofNat (n % 16).digitChar.toNat], IsHexDigit h := by
    decide +kernel
  exact fun n small => ⟨_, _, all n small⟩

/-- The escaped character is read back to the bytes of the character. -/
theorem writes_escapeChar (c : Char) :
    Writes (Utf8.encode (escapeChar c)) (String.utf8EncodeChar c) := by
  by_cases lettered : c ∈ ['"', '\\', '\x08', '\t', '\n', '\x0c', '\r']
  · simp only [List.mem_cons, List.not_mem_nil, or_false] at lettered
    rcases lettered with rfl | rfl | rfl | rfl | rfl | rfl | rfl <;>
      exact .letter (by decide) rfl
  · simp only [List.mem_cons, List.not_mem_nil, or_false, not_or] at lettered
    obtain ⟨notQuote, notBackslash, others⟩ := lettered
    simp only [escapeChar, if_neg notQuote, if_neg notBackslash, others, if_false]
    split
    · rename_i control
      obtain ⟨a, b, pair, hex, digits⟩ := hexPair_digits c.toNat control
      have written := Writes.codePoint digits hex control
      rw [Char.ofNat_toNat] at written
      rw [Utf8.encode_append, pair]
      exact written
    · rename_i notControl
      rw [Utf8.encode_cons, Utf8.encode, List.flatMap_nil, List.append_nil]
      exact .self (utf8EncodeChar_plain notQuote notBackslash notControl)

theorem writes_escaped (text : List Char) :
    Writes (Utf8.encode (text.flatMap escapeChar)) (Utf8.encode text) := by
  induction text with
  | nil => exact .nil
  | cons c text ih =>
      rw [List.flatMap_cons, Utf8.encode_append, Utf8.encode_cons]
      exact (writes_escapeChar c).append ih

/-! ## Strings -/

theorem encode_quoted (s : String) :
    Utf8.encode (quoted s) =
      Ascii.quote :: (Utf8.encode (s.toList.flatMap escapeChar) ++ [Ascii.quote]) := by
  rw [quoted, Utf8.encode_cons, Utf8.encode_append]
  rfl

theorem isString_quoted (s : String) : IsString (Utf8.encode (quoted s)) := by
  have content := (writes_escaped s.toList).content .nil
  rw [List.append_nil] at content
  rw [encode_quoted]
  exact .content content

theorem readString_quoted (s : String) (rest : List UInt8) :
    readString (Utf8.encode (s.toList.flatMap escapeChar) ++ Ascii.quote :: rest) =
      .ok (s, rest) := by
  have content : readContent (Utf8.encode (s.toList.flatMap escapeChar) ++ Ascii.quote :: rest) =
      .ok (Utf8.encode s.toList, rest) := by
    rw [(writes_escaped s.toList).read, readContent_quote, ok_bind]
    simp
  rw [readString, content, ok_bind]
  simp [Utf8.decode_encode]

theorem scalar?_quoted (s : String) : scalar? (Utf8.encode (quoted s)) = some (.string s) := by
  refine scalar?_of_leaves ?_
  rw [encode_quoted, readScalar_quote, readString_quoted]
  rfl

theorem key?_quoted (s : String) : key? (Utf8.encode (quoted s)) = some s := by
  rw [key?, scalar?_quoted]

end JsonSelect.Json
