/-
# JsonSelect.Json.Reading.Value -- JSON values in text

* `Json.parse` reads a text that holds one value of any kind.
* `Json.readObjectText` reads a text that holds one object and gives its members; any
  other value is refused at its end, an array at its bracket.

A value is read by recursion on the depth to which containers may still be nested; the
loops over items and members end because each round leaves fewer bytes.
-/
import JsonSelect.Json.Reading.Numeral
import JsonSelect.Json.Reading.Text

namespace JsonSelect.Json

set_option autoImplicit false

/-- Containers may be nested this deep. -/
def depthLimit : Nat := 127

/-! ## Scalars -/

/-- The rest of the word that a letter begins, and what the word means. -/
def word? (b : UInt8) : Option (List UInt8 × Scalar) :=
  if b = Ascii.lowerN then some ([0x75, 0x6c, 0x6c], .null)
  else if b = Ascii.lowerT then some ([0x72, 0x75, 0x65], .bool true)
  else if b = Ascii.lowerF then some ([0x61, 0x6c, 0x73, 0x65], .bool false)
  else none

/-- A value that is neither array nor object, from its first byte on. -/
def readScalar : List UInt8 → Except Failure (Scalar × List UInt8)
  | [] => .error (.after .endInValue [])
  | b :: s =>
      match word? b with
      | some (word, value) => do
          let (_, rest) ← readWord word s
          .ok (value, rest)
      | none =>
          if b = Ascii.quote then do
            let (text, rest) ← readString s
            .ok (.string text, rest)
          else if b = Ascii.minus then do
            let (n, rest) ← readUnsigned true s
            .ok (.number n, rest)
          else if isDigit b then do
            let (n, rest) ← readUnsigned false (b :: s)
            .ok (.number n, rest)
          else .error (.afterNext .expectedValue (b :: s))

theorem readScalar_shortens : Shortens readScalar := by
  intro s value rest h
  cases s with
  | nil => cases h
  | cons b s =>
      simp only [readScalar, bind, Except.bind] at h
      split at h
      · split at h
        · cases h
        · rename_i word
          cases h
          exact Nat.lt_succ_of_le (length_rest_readWord_le word)
      · split at h
        · split at h
          · cases h
          · rename_i text
            cases h
            exact Nat.lt_succ_of_lt (readString_shortens text)
        · split at h
          · split at h
            · cases h
            · rename_i number
              cases h
              exact Nat.lt_succ_of_lt (readUnsigned_shortens _ number)
          · split at h
            · split at h
              · cases h
              · rename_i number
                cases h
                exact readUnsigned_shortens _ number
            · cases h

/-! ## Items -/

theorem length_lt_of_skipBlanks_eq_cons {s t : List UInt8} {b : UInt8}
    (h : skipBlanks s = b :: t) : t.length < s.length :=
  Nat.lt_of_succ_le (by simpa [h] using length_skipBlanks_le s)

/-- What follows an item: the closing bracket, or a comma and further items. -/
def readMoreItems (item : Reader Json) : Reader (List Json) := fun s =>
  match h : skipBlanks s with
  | [] => .error (.after .endInArray [])
  | b :: t =>
      have lt := length_lt_of_skipBlanks_eq_cons h
      if b = Ascii.closeBracket then .ok ⟨[], t, lt⟩
      else if b = Ascii.comma then
        match skipBlanks t with
        | [] => .error (.after .endInValue [])
        | c :: u =>
            if c = Ascii.closeBracket then .error (.afterNext .trailingComma (c :: u))
            else do
              let ⟨v, rest, lt₁⟩ ← item t
              let ⟨more, rest, lt₂⟩ ← readMoreItems item rest
              .ok ⟨v :: more, rest, Nat.lt_trans lt₂ (Nat.lt_trans lt₁ lt)⟩
      else .error (.afterNext .expectedItemEnd (b :: t))
termination_by s => s.length

/-- What follows an opening bracket. -/
def readItems (item : Reader Json) : Reader (List Json) := fun s =>
  match h : skipBlanks s with
  | [] => .error (.after .endInArray [])
  | b :: t =>
      if b = Ascii.closeBracket then .ok ⟨[], t, length_lt_of_skipBlanks_eq_cons h⟩
      else do
        let ⟨v, rest, lt₁⟩ ← item s
        let ⟨more, rest, lt₂⟩ ← readMoreItems item rest
        .ok ⟨v :: more, rest, Nat.lt_trans lt₂ lt₁⟩

/-! ## Members -/

/-- A member whose opening quote has been read. -/
def readMember (value : Reader Json) : Reader (String × Json) := fun s => do
  let ⟨key, rest, lt₁⟩ ← Reader.of readString readString_shortens s
  match h : skipBlanks rest with
  | [] => .error (.after .endInObject [])
  | b :: t =>
      if b = Ascii.colon then do
        let ⟨v, rest, lt₂⟩ ← value t
        .ok ⟨(key, v), rest,
          Nat.lt_trans lt₂ (Nat.lt_trans (length_lt_of_skipBlanks_eq_cons h) lt₁)⟩
      else .error (.afterNext .expectedColon (b :: t))

/-- What follows a member: the closing brace, or a comma and further members. -/
def readMoreMembers (value : Reader Json) : Reader (List (String × Json)) := fun s =>
  match h : skipBlanks s with
  | [] => .error (.after .endInObject [])
  | b :: t =>
      have lt := length_lt_of_skipBlanks_eq_cons h
      if b = Ascii.closeBrace then .ok ⟨[], t, lt⟩
      else if b = Ascii.comma then
        match h : skipBlanks t with
        | [] => .error (.after .endInValue [])
        | c :: u =>
            have lt := Nat.lt_trans (length_lt_of_skipBlanks_eq_cons h) lt
            if c = Ascii.quote then do
              let ⟨m, rest, lt₁⟩ ← readMember value u
              let ⟨more, rest, lt₂⟩ ← readMoreMembers value rest
              .ok ⟨m :: more, rest, Nat.lt_trans lt₂ (Nat.lt_trans lt₁ lt)⟩
            else if c = Ascii.closeBrace then .error (.afterNext .trailingComma (c :: u))
            else .error (.afterNext .keyNotString (c :: u))
      else .error (.afterNext .expectedMemberEnd (b :: t))
termination_by s => s.length

/-- What follows an opening brace. -/
def readMembers (value : Reader Json) : Reader (List (String × Json)) := fun s =>
  match h : skipBlanks s with
  | [] => .error (.after .endInObject [])
  | b :: t =>
      have lt := length_lt_of_skipBlanks_eq_cons h
      if b = Ascii.closeBrace then .ok ⟨[], t, lt⟩
      else if b = Ascii.quote then do
        let ⟨m, rest, lt₁⟩ ← readMember value t
        let ⟨more, rest, lt₂⟩ ← readMoreMembers value rest
        .ok ⟨m :: more, rest, Nat.lt_trans lt₂ (Nat.lt_trans lt₁ lt)⟩
      else .error (.afterNext .keyNotString (b :: t))

/-! ## Values -/

/-- A value behind blanks.  `inner` reads what is inside a container; without it
containers are too deep. -/
def readValueWith (inner : Option (Reader Json)) : Reader Json := fun s =>
  match h : skipBlanks s with
  | [] => .error (.after .endInValue [])
  | b :: t =>
      have lt := length_lt_of_skipBlanks_eq_cons h
      if b = Ascii.openBracket then
        match inner with
        | none => .error (.afterNext .tooDeep (b :: t))
        | some value => do
            let ⟨items, rest, lt₁⟩ ← readItems value t
            .ok ⟨.array items, rest, Nat.lt_trans lt₁ lt⟩
      else if b = Ascii.openBrace then
        match inner with
        | none => .error (.afterNext .tooDeep (b :: t))
        | some value => do
            let ⟨members, rest, lt₁⟩ ← readMembers value t
            .ok ⟨.object (Keyed.ofList members), rest, Nat.lt_trans lt₁ lt⟩
      else do
        let ⟨scalar, rest, lt₁⟩ ← Reader.of readScalar readScalar_shortens (b :: t)
        .ok ⟨scalar.toJson, rest, Nat.lt_of_lt_of_le lt₁ lt⟩

/-- A value whose containers are nested at most `depth` deep. -/
def readValue : (depth : Nat) → Reader Json
  | 0 => readValueWith none
  | depth + 1 => readValueWith (some (readValue depth))

/-! ## Whole texts -/

/-- Nothing but blanks may follow. -/
def readEnd (s : List UInt8) : Except Failure Unit :=
  match skipBlanks s with
  | [] => .ok ()
  | b :: t => .error (.afterNext .trailingCharacters (b :: t))

/-- A text that is one value. -/
def readText (s : List UInt8) : Except Failure Json := do
  let ⟨v, rest, _⟩ ← readValue depthLimit s
  readEnd rest
  return v

/-- A text that is one object; its members. -/
def readObjectText (s : List UInt8) : Except Failure (Keyed Json) :=
  match skipBlanks s with
  | [] => .error (.after .endInValue [])
  | b :: t =>
      if b = Ascii.openBrace then do
        let ⟨members, rest, _⟩ ← readMembers (readValue (depthLimit - 1)) t
        readEnd rest
        return Keyed.ofList members
      else if b = Ascii.openBracket then .error (.after (.rootNotObject .array) (b :: t))
      else do
        let (scalar, rest) ← readScalar (b :: t)
        .error (.after (.rootNotObject (.scalar scalar)) rest)

def parse (input : List UInt8) : Except DecodeError Json :=
  (readText input).mapError (.ofFailure input)

end JsonSelect.Json
