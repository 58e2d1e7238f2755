/-
# JsonSelect.Json.Reading.Text -- strings in text

The content of a string is collected as bytes, escapes replaced by the bytes of their
character, and only the whole content has to be UTF-8.
-/
import JsonSelect.Json.Reading.Step

namespace JsonSelect.Json

set_option autoImplicit false

/-! ## Escapes -/

/-- The value of a hexadecimal digit in either case. -/
def hexValue? (b : UInt8) : Option Nat :=
  if isDigit b then some (digitValue b)
  else if 0x61 ≤ b ∧ b ≤ 0x66 then some (b.toNat - 0x61 + 10)
  else if 0x41 ≤ b ∧ b ≤ 0x46 then some (b.toNat - 0x41 + 10)
  else none

def hexNumber? (a b c d : UInt8) : Option Nat := do
  return (((← hexValue? a) * 16 + (← hexValue? b)) * 16 + (← hexValue? c)) * 16 + (← hexValue? d)

/-- Four hexadecimal digits.  All four count as read when one of them is none. -/
def readHex : List UInt8 → Except Failure (Nat × List UInt8)
  | a :: b :: c :: d :: rest =>
      match hexNumber? a b c d with
      | some n => .ok (n, rest)
      | none => .error (.after .invalidEscape rest)
  | _ => .error (.after .endInString [])

def isLeadingSurrogate (n : Nat) : Bool := 0xd800 ≤ n && n ≤ 0xdbff

def isTrailingSurrogate (n : Nat) : Bool := 0xdc00 ≤ n && n ≤ 0xdfff

/-- The code point of two surrogates. -/
def surrogatePair (leading trailing : Nat) : Nat :=
  (leading - 0xd800) * 0x400 + (trailing - 0xdc00) + 0x10000

/-- A byte that a surrogate pair needs in its middle. -/
def readPairByte (wanted : UInt8) : List UInt8 → Except Failure (Unit × List UInt8)
  | [] => .error (.after .endInString [])
  | b :: rest => if b = wanted then .ok ((), rest) else .error (.after .brokenSurrogatePair rest)

/-- What stands behind `\u`: a character, or the two surrogates of one. -/
def readCodePoint (s : List UInt8) : Except Failure (Nat × List UInt8) := do
  let (n, s) ← readHex s
  if isTrailingSurrogate n then .error (.after .loneSurrogate s)
  else if isLeadingSurrogate n then do
    let (_, s) ← readPairByte Ascii.backslash s
    let (_, s) ← readPairByte Ascii.lowerU s
    let (m, s) ← readHex s
    if isTrailingSurrogate m then .ok (surrogatePair n m, s)
    else .error (.after .loneSurrogate s)
  else .ok (n, s)

/-- The character that a letter stands for behind a backslash. -/
def letterEscape? (b : UInt8) : Option UInt8 :=
  if b = Ascii.quote ∨ b = Ascii.backslash ∨ b = 0x2f then some b
  else if b = 0x62 then some 0x08
  else if b = Ascii.lowerF then some 0x0c
  else if b = Ascii.lowerN then some 0x0a
  else if b = 0x72 then some 0x0d
  else if b = Ascii.lowerT then some 0x09
  else none

/-- The bytes that an escape stands for, its backslash being read. -/
def readEscape : List UInt8 → Except Failure (List UInt8 × List UInt8)
  | [] => .error (.after .endInString [])
  | b :: s =>
      if b = Ascii.lowerU then do
        let (n, s) ← readCodePoint s
        .ok (String.utf8EncodeChar (Char.ofNat n), s)
      else
        match letterEscape? b with
        | some c => .ok ([c], s)
        | none => .error (.after .invalidEscape s)

theorem readHex_shortens : Shortens readHex := by
  intro s n rest h
  unfold readHex at h
  split at h
  · split at h <;> cases h
    simp only [List.length_cons]; omega
  · cases h

theorem readPairByte_shortens (wanted : UInt8) : Shortens (readPairByte wanted) := by
  intro s _ rest h
  cases s with
  | nil => cases h
  | cons b s =>
      simp only [readPairByte] at h
      split at h <;> cases h
      exact Nat.lt_succ_self _

theorem readCodePoint_shortens : Shortens readCodePoint := by
  intro s n rest h
  simp only [readCodePoint, bind, Except.bind] at h
  split at h
  · cases h
  · rename_i first
    have lt := readHex_shortens first
    split at h
    · cases h
    · split at h
      · split at h
        · cases h
        · rename_i backslash
          split at h
          · cases h
          · rename_i letter
            split at h
            · cases h
            · rename_i second
              split at h <;> cases h
              have := readPairByte_shortens _ backslash
              have := readPairByte_shortens _ letter
              have := readHex_shortens second
              omega
      · cases h; exact lt

theorem readEscape_shortens : Shortens readEscape := by
  intro s bytes rest h
  cases s with
  | nil => cases h
  | cons b s =>
      simp only [readEscape, bind, Except.bind] at h
      split at h
      · split at h
        · cases h
        · rename_i point
          cases h
          exact Nat.lt_succ_of_lt (readCodePoint_shortens point)
      · split at h <;> cases h
        exact Nat.lt_succ_self _

/-! ## Strings -/

/-- The content of a string up to its closing quote, the opening quote being read. -/
def readContent : List UInt8 → Except Failure (List UInt8 × List UInt8)
  | [] => .error (.after .endInString [])
  | b :: s =>
      if b = Ascii.quote then .ok ([], s)
      else if b = Ascii.backslash then
        match h : readEscape s with
        | .error failure => .error failure
        | .ok (bytes, rest) =>
            have := readEscape_shortens h
            do
              let (more, rest) ← readContent rest
              .ok (bytes ++ more, rest)
      else if b < 0x20 then .error (.after .controlCharacter s)
      else do
        let (more, rest) ← readContent s
        .ok (b :: more, rest)
termination_by s => s.length
decreasing_by
  · exact Nat.lt_succ_of_lt this
  · exact Nat.lt_succ_self _

/-- A string whose opening quote has been read. -/
def readString (s : List UInt8) : Except Failure (String × List UInt8) := do
  let (content, rest) ← readContent s
  match Utf8.decode content with
  | (text, []) => .ok (String.ofList text, rest)
  | (_, undecoded) => .error (.after (.invalidText undecoded.length) rest)

theorem readContent_shortens : Shortens readContent := by
  intro s content rest h
  fun_induction readContent s generalizing content rest with
  | case1 => cases h
  | case2 => cases h; exact Nat.lt_succ_self _
  | case3 => cases h
  | case4 s bytes left escape lt _ ih =>
      simp only [bind, Except.bind] at h
      split at h
      · cases h
      · rename_i read
        cases h
        have := ih read
        simp only [List.length_cons]; omega
  | case5 => cases h
  | case6 b s _ _ _ ih =>
      simp only [bind, Except.bind] at h
      split at h
      · cases h
      · rename_i read
        cases h
        exact Nat.lt_succ_of_lt (ih read)

theorem readString_shortens : Shortens readString := by
  intro s text rest h
  simp only [readString, bind, Except.bind] at h
  split at h
  · cases h
  · rename_i content
    split at h <;> cases h
    exact readContent_shortens content

end JsonSelect.Json
