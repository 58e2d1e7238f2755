/-
# JsonSelect.Proofs.Json.Reading.Text -- a string is read alone

The reader of a string takes exactly the bytes up to its closing quote, and what it makes of
them does not depend on what follows.

* `readEscape_cases`: an escape fails whatever follows, or leaves a shorter content; two
  surrogates are one escape.
* `readAlone_readString`: so it is for any content of the grammar.
-/
import JsonSelect.Proofs.Json.Grammar
import JsonSelect.Proofs.Json.Reading.Plain

namespace JsonSelect.Json

set_option autoImplicit false

/-! ## Escapes -/

theorem exists_hexValue? {h : UInt8} (digit : IsHexDigit h) : ∃ n, hexValue? h = some n := by
  rw [hexValue?]
  by_cases decimal : isDigit h = true
  · exact ⟨_, if_pos decimal⟩
  · rw [if_neg decimal]
    by_cases lower : 0x61 ≤ h ∧ h ≤ 0x66
    · exact ⟨_, if_pos lower⟩
    · rw [if_neg lower]
      exact ⟨_, if_pos ((digit.resolve_left decimal).resolve_left lower)⟩

theorem readHex_of_digits {a b c d : UInt8} (digits : ∀ h ∈ [a, b, c, d], IsHexDigit h) :
    ∃ n, ∀ rest, readHex (a :: b :: c :: d :: rest) = .ok (n, rest) := by
  simp only [List.forall_mem_cons] at digits
  obtain ⟨isA, isB, isC, isD, -⟩ := digits
  obtain ⟨i, first⟩ := exists_hexValue? isA
  obtain ⟨j, second⟩ := exists_hexValue? isB
  obtain ⟨k, third⟩ := exists_hexValue? isC
  obtain ⟨l, fourth⟩ := exists_hexValue? isD
  exact ⟨((i * 16 + j) * 16 + k) * 16 + l, fun rest => by
    simp [readHex, hexNumber?, first, second, third, fourth]⟩

/-- Four digits are a character or, if a trailing half follows, the leading half of one.
Where they are neither, the string is refused whatever follows it. -/
theorem readCodePoint_cases {a b c d : UInt8} {s : List UInt8}
    (digits : ∀ h ∈ [a, b, c, d], IsHexDigit h) (more : IsContent s) :
    (∀ rest, ∃ e, readCodePoint (a :: b :: c :: d :: (s ++ Ascii.quote :: rest)) = .error e) ∨
      ∃ n t, IsContent t ∧ t.length ≤ s.length ∧ ∀ rest,
        readCodePoint (a :: b :: c :: d :: (s ++ Ascii.quote :: rest)) =
          .ok (n, t ++ Ascii.quote :: rest) := by
  obtain ⟨n, hex⟩ := readHex_of_digits digits
  simp only [readCodePoint, hex, ok_bind]
  by_cases trailing : isTrailingSurrogate n = true
  · exact .inl fun rest => ⟨_, if_pos trailing⟩
  simp only [if_neg trailing]
  by_cases leading : isLeadingSurrogate n = true
  · simp only [if_pos leading]
    cases more with
    | nil => exact .inl fun rest => ⟨_, rfl⟩
    | @plain l s _ notBackslash =>
        refine .inl fun rest => ⟨.after .brokenSurrogatePair (s ++ Ascii.quote :: rest), ?_⟩
        rw [List.cons_append, readPairByte, if_neg notBackslash, error_bind]
    | @letter l s letter =>
        have notU : l ≠ Ascii.lowerU := by
          rintro rfl
          exact absurd letter (by decide)
        refine .inl fun rest => ⟨.after .brokenSurrogatePair (s ++ Ascii.quote :: rest), ?_⟩
        rw [List.cons_append, readPairByte, if_pos rfl, ok_bind, List.cons_append, readPairByte,
          if_neg notU, error_bind]
    | @codePoint a' b' c' d' s digits' more' =>
        obtain ⟨m, hex'⟩ := readHex_of_digits digits'
        by_cases paired : isTrailingSurrogate m = true
        · refine .inr ⟨surrogatePair n m, s, more', ?_, fun rest => ?_⟩
          · simp only [List.length_cons]
            omega
          · simp [readPairByte, hex', paired]
        · exact .inl fun rest => ⟨.after .loneSurrogate (s ++ Ascii.quote :: rest), by
            simp [readPairByte, hex', paired]⟩
  · simp only [if_neg leading]
    exact .inr ⟨n, s, more, Nat.le_refl _, fun rest => rfl⟩

theorem exists_letterEscape? {b : UInt8} (letter : b ∈ escapeLetters) :
    ∃ c, letterEscape? b = some c ∧ b ≠ Ascii.lowerU := by
  simp only [escapeLetters, List.mem_cons, List.not_mem_nil, or_false] at letter
  rcases letter with rfl | rfl | rfl | rfl | rfl | rfl | rfl | rfl <;> exact ⟨_, rfl, by decide⟩

theorem readEscape_of_letter {b c : UInt8} (found : letterEscape? b = some c)
    (notU : b ≠ Ascii.lowerU) (s : List UInt8) : readEscape (b :: s) = .ok ([c], s) := by
  rw [readEscape, if_neg notU, found]

/-! ## Contents -/

theorem readContent_quote (s : List UInt8) : readContent (Ascii.quote :: s) = .ok ([], s) := by
  rw [readContent, if_pos rfl]

theorem readContent_plain {b : UInt8} (notQuote : b ≠ Ascii.quote)
    (notBackslash : b ≠ Ascii.backslash) (notControl : ¬ b < 0x20) (s : List UInt8) :
    readContent (b :: s) = readContent s >>= fun (more, rest) => .ok (b :: more, rest) := by
  rw [readContent, if_neg notQuote, if_neg notBackslash, if_neg notControl]

theorem readContent_escape {s rest bytes : List UInt8} (escape : readEscape s = .ok (bytes, rest)) :
    readContent (Ascii.backslash :: s) =
      readContent rest >>= fun (more, rest) => .ok (bytes ++ more, rest) := by
  rw [readContent, if_neg (by decide), if_pos rfl]
  split
  · rename_i failed
    cases escape.symm.trans failed
  · rename_i read
    cases escape.symm.trans read
    rfl

theorem readContent_of_error {s : List UInt8} {e : Failure} (failed : readEscape s = .error e) :
    readContent (Ascii.backslash :: s) = .error e := by
  rw [readContent, if_neg (by decide), if_pos rfl]
  split
  · rename_i failed'
    cases failed.symm.trans failed'
    rfl
  · rename_i read
    cases failed.symm.trans read

/-- Two surrogates take two escapes of the grammar at once, so the induction is on the
length of the content. -/
theorem readAlone_readContent {s : List UInt8} (content : IsContent s) :
    ∃ outcome, ∀ rest, Leaves (readContent (s ++ Ascii.quote :: rest)) rest outcome := by
  cases content with
  | nil => exact ⟨some [], readContent_quote⟩
  | @plain b s notQuote notBackslash notControl more =>
      obtain ⟨outcome, read⟩ := readAlone_readContent more
      refine ⟨outcome.map (b :: ·), fun rest => ?_⟩
      rw [List.cons_append, readContent_plain notQuote notBackslash notControl]
      exact (read rest).map _
  | @letter b s letter more =>
      obtain ⟨c, found, notU⟩ := exists_letterEscape? letter
      obtain ⟨outcome, read⟩ := readAlone_readContent more
      refine ⟨outcome.map ([c] ++ ·), fun rest => ?_⟩
      rw [List.cons_append, List.cons_append,
        readContent_escape (readEscape_of_letter found notU _)]
      exact (read rest).map _
  | @codePoint a b c d s digits more =>
      rcases readCodePoint_cases digits more with fails | ⟨n, t, left, _, point⟩
      · refine ⟨none, fun rest => ?_⟩
        obtain ⟨e, failed⟩ := fails rest
        have escape : readEscape (Ascii.lowerU :: a :: b :: c :: d :: (s ++ Ascii.quote :: rest)) =
            .error e := by
          rw [readEscape, if_pos rfl, failed, error_bind]
        exact ⟨e, readContent_of_error escape⟩
      · obtain ⟨outcome, read⟩ := readAlone_readContent left
        let bytes := String.utf8EncodeChar (Char.ofNat n)
        refine ⟨outcome.map (bytes ++ ·), fun rest => ?_⟩
        have escape : readEscape (Ascii.lowerU :: a :: b :: c :: d :: (s ++ Ascii.quote :: rest)) =
            .ok (bytes, t ++ Ascii.quote :: rest) := by
          rw [readEscape, if_pos rfl, point, ok_bind]
        exact readContent_escape escape ▸ (read rest).map _
termination_by s.length
decreasing_by all_goals simp only [List.length_cons]; omega

/-- The text that bytes are the UTF-8 form of. -/
def textOf? (bytes : List UInt8) : Option String :=
  match Utf8.decode bytes with
  | (text, []) => some (String.ofList text)
  | _ => none

theorem readAlone_readString {s : List UInt8} (content : IsContent s) :
    ∃ outcome, ∀ rest, Leaves (readString (s ++ Ascii.quote :: rest)) rest outcome := by
  obtain ⟨outcome, read⟩ := readAlone_readContent content
  refine ⟨outcome.bind textOf?, fun rest => (read rest).bind fun bytes _ => ?_⟩
  dsimp only
  rw [textOf?]
  obtain ⟨text, undecoded⟩ := Utf8.decode bytes
  cases undecoded with
  | nil => exact leaves_ok _ rest
  | cons => exact leaves_error _ rest

end JsonSelect.Json
