/-
# JsonSelect.Text.Utf8 -- text as bytes

* `Utf8.encode` and `Utf8.bytes` give the UTF-8 form of characters and of a string.
* `Utf8.decode` reads characters for as long as the bytes are valid UTF-8 and says
  which bytes are left, so a text is valid exactly when nothing is left, and where it
  stops being valid is known too.
* `decode_encode`: a text is read back from its bytes, so different texts have different
  bytes (`bytes_injective`).
-/
namespace JsonSelect

set_option autoImplicit false

namespace Utf8

def encode (text : List Char) : List UInt8 := text.flatMap String.utf8EncodeChar

def bytes (text : String) : List UInt8 := encode text.toList

/-- The number of bytes of a text. -/
def size (text : List Char) : Nat := (encode text).length

/-- The character that the bytes begin with.  No character takes more than four. -/
def firstChar? (bytes : List UInt8) : Option Char := (bytes.take 4).toByteArray.utf8DecodeChar? 0

theorem length_drop_utf8Size_lt (c : Char) (b : UInt8) (rest : List UInt8) :
    ((b :: rest).drop c.utf8Size).length < (b :: rest).length := by
  have := c.utf8Size_pos
  simp only [List.length_drop, List.length_cons]
  omega

/-- The characters of the longest valid beginning, and the bytes after it. -/
def decode : List UInt8 → List Char × List UInt8
  | [] => ([], [])
  | b :: rest =>
      match firstChar? (b :: rest) with
      | none => ([], b :: rest)
      | some c =>
          let (text, left) := decode ((b :: rest).drop c.utf8Size)
          (c :: text, left)
termination_by bytes => bytes.length
decreasing_by exact length_drop_utf8Size_lt ..

/-! ## Reading back -/

theorem encode_cons (c : Char) (text : List Char) :
    encode (c :: text) = String.utf8EncodeChar c ++ encode text := rfl

theorem encode_append (s t : List Char) : encode (s ++ t) = encode s ++ encode t :=
  List.flatMap_append

@[simp] theorem size_nil : size [] = 0 := rfl

theorem size_singleton_pos (c : Char) : 0 < size [c] := by
  have := c.utf8Size_pos
  rw [size, encode, List.flatMap_singleton, String.length_utf8EncodeChar]
  exact this

@[simp] theorem size_append (s t : List Char) : size (s ++ t) = size s + size t := by
  rw [size, encode_append, List.length_append, size, size]

/-- A text begins with the character whose bytes come first. -/
theorem firstChar?_append (c : Char) (rest : List UInt8) :
    firstChar? (String.utf8EncodeChar c ++ rest) = some c := by
  have short : (String.utf8EncodeChar c).length ≤ 4 := by
    rw [String.length_utf8EncodeChar]; exact c.utf8Size_le_four
  rw [firstChar?, List.take_append, List.take_of_length_le short, List.toByteArray_append,
    ByteArray.utf8DecodeChar?_utf8EncodeChar_append]

theorem decode_append (c : Char) (rest : List UInt8) :
    decode (String.utf8EncodeChar c ++ rest) = (c :: (decode rest).1, (decode rest).2) := by
  have first := firstChar?_append c rest
  have left : (String.utf8EncodeChar c ++ rest).drop c.utf8Size = rest :=
    List.drop_left' (String.length_utf8EncodeChar c)
  cases h : String.utf8EncodeChar c ++ rest with
  | nil =>
      exact absurd (List.append_eq_nil_iff.1 h).1 String.utf8EncodeChar_ne_nil
  | cons b bytes =>
      rw [h] at first left
      rw [decode, first]
      simp only [left]

/-- A text is read back from its bytes, and nothing is left. -/
theorem decode_encode (text : List Char) : decode (encode text) = (text, []) := by
  induction text with
  | nil => simp [encode, decode]
  | cons c text ih => rw [encode_cons, decode_append, ih]

theorem encode_injective {s t : List Char} (h : encode s = encode t) : s = t := by
  have := congrArg decode h
  rw [decode_encode, decode_encode] at this
  exact (Prod.mk.inj this).1

theorem bytes_injective {s t : String} (h : bytes s = bytes t) : s = t :=
  String.toList_inj.1 (encode_injective h)

end Utf8

end JsonSelect
