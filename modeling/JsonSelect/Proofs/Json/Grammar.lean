/-
# JsonSelect.Proofs.Json.Grammar -- what a JSON text is

The grammar of JSON texts, without a word about how they are read or what they mean.

* `IsScalar` holds of the tokens: words, strings and numerals.
* `ParseTree` is what a text says when the blanks between its tokens are left out, with
  members as often and in the order in which they are written.
* `ParseTree.Spells` holds of a tree and a text of it, with any blanks between the tokens.
-/
import JsonSelect.Json.Reading.Step

namespace JsonSelect

set_option autoImplicit false

namespace Json

/-! ## Numerals -/

def AllDigits (s : List UInt8) : Prop := ∀ b ∈ s, isDigit b = true

/-- A zero, or digits of which the first is none. -/
inductive IsWhole : List UInt8 → Prop
  | zero : IsWhole [Ascii.zero]
  | digits {d : UInt8} {ds : List UInt8} (digit : isDigit d = true) (nonzero : d ≠ Ascii.zero)
      (more : AllDigits ds) : IsWhole (d :: ds)

/-- Nothing, or a point and at least one digit. -/
inductive IsFraction : List UInt8 → Prop
  | missing : IsFraction []
  | digits {d : UInt8} {ds : List UInt8} (digit : isDigit d = true) (more : AllDigits ds) :
      IsFraction (Ascii.point :: d :: ds)

/-- Nothing, or a mark, a sign that may be missing and at least one digit. -/
inductive IsExponent : List UInt8 → Prop
  | missing : IsExponent []
  | digits {mark d : UInt8} {sign ds : List UInt8}
      (marks : mark = Ascii.lowerE ∨ mark = Ascii.upperE)
      (signs : sign ∈ [[], [Ascii.minus], [Ascii.plus]]) (digit : isDigit d = true)
      (more : AllDigits ds) : IsExponent (mark :: (sign ++ d :: ds))

inductive IsUnsigned : List UInt8 → Prop
  | parts {whole fraction exponent : List UInt8} (isWhole : IsWhole whole)
      (isFraction : IsFraction fraction) (isExponent : IsExponent exponent) :
      IsUnsigned (whole ++ (fraction ++ exponent))

inductive IsNumeral : List UInt8 → Prop
  | positive {s : List UInt8} (unsigned : IsUnsigned s) : IsNumeral s
  | negative {s : List UInt8} (unsigned : IsUnsigned s) : IsNumeral (Ascii.minus :: s)

/-! ## Strings -/

/-- A hexadecimal digit in either case. -/
def IsHexDigit (b : UInt8) : Prop :=
  isDigit b = true ∨ (0x61 ≤ b ∧ b ≤ 0x66) ∨ (0x41 ≤ b ∧ b ≤ 0x46)

instance (b : UInt8) : Decidable (IsHexDigit b) := inferInstanceAs (Decidable (_ ∨ _))

/-- The letters that may follow a backslash, but for the one before a code point. -/
def escapeLetters : List UInt8 :=
  [Ascii.quote, Ascii.backslash, 0x2f, 0x62, Ascii.lowerF, Ascii.lowerN, 0x72, Ascii.lowerT]

/-- What may stand between the quotes of a string. -/
inductive IsContent : List UInt8 → Prop
  | nil : IsContent []
  | plain {b : UInt8} {s : List UInt8} (notQuote : b ≠ Ascii.quote)
      (notBackslash : b ≠ Ascii.backslash) (notControl : ¬ b < 0x20) (more : IsContent s) :
      IsContent (b :: s)
  | letter {b : UInt8} {s : List UInt8} (letter : b ∈ escapeLetters) (more : IsContent s) :
      IsContent (Ascii.backslash :: b :: s)
  | codePoint {a b c d : UInt8} {s : List UInt8} (digits : ∀ h ∈ [a, b, c, d], IsHexDigit h)
      (more : IsContent s) : IsContent (Ascii.backslash :: Ascii.lowerU :: a :: b :: c :: d :: s)

inductive IsString : List UInt8 → Prop
  | content {s : List UInt8} (content : IsContent s) :
      IsString (Ascii.quote :: (s ++ [Ascii.quote]))

/-! ## Tokens -/

/-- A value that is neither array nor object. -/
inductive IsScalar : List UInt8 → Prop
  | wordNull : IsScalar [Ascii.lowerN, 0x75, 0x6c, 0x6c]
  | wordTrue : IsScalar [Ascii.lowerT, 0x72, 0x75, 0x65]
  | wordFalse : IsScalar [Ascii.lowerF, 0x61, 0x6c, 0x73, 0x65]
  | string {s : List UInt8} (string : IsString s) : IsScalar s
  | numeral {s : List UInt8} (numeral : IsNumeral s) : IsScalar s

def AllBlank (s : List UInt8) : Prop := ∀ b ∈ s, isBlank b = true

instance (s : List UInt8) : Decidable (AllBlank s) := List.decidableBAll _ s

end Json

open Json

/-! ## Trees -/

/-- A text without the blanks between its tokens. -/
inductive ParseTree where
  | scalar (token : List UInt8)
  | array (items : List ParseTree)
  | object (members : List (List UInt8 × ParseTree))

namespace ParseTree

/-- A key, a colon and one of the texts of a value. -/
def SpellsMember (key : List UInt8) (value : List UInt8 → Prop) (s : List UInt8) : Prop :=
  ∃ before blanks t, IsString key ∧ AllBlank before ∧ AllBlank blanks ∧ value t ∧
    s = key ++ (before ++ Ascii.colon :: (blanks ++ t))

mutual

/-- The text is one of the tree, without blanks around it. -/
def Spells : ParseTree → List UInt8 → Prop
  | .scalar token, s => IsScalar token ∧ s = token
  | .array items, s => ∃ t, SpellsItems items t ∧ s = Ascii.openBracket :: t
  | .object members, s => ∃ t, SpellsMembers members t ∧ s = Ascii.openBrace :: t

/-- What follows an opening bracket. -/
def SpellsItems : List ParseTree → List UInt8 → Prop
  | [], s => ∃ blanks, AllBlank blanks ∧ s = blanks ++ [Ascii.closeBracket]
  | item :: rest, s => ∃ blanks t u, AllBlank blanks ∧ item.Spells t ∧ SpellsMoreItems rest u ∧
      s = blanks ++ (t ++ u)

/-- What follows an item. -/
def SpellsMoreItems : List ParseTree → List UInt8 → Prop
  | [], s => ∃ blanks, AllBlank blanks ∧ s = blanks ++ [Ascii.closeBracket]
  | item :: rest, s => ∃ before blanks t u, AllBlank before ∧ AllBlank blanks ∧ item.Spells t ∧
      SpellsMoreItems rest u ∧ s = before ++ Ascii.comma :: (blanks ++ (t ++ u))

/-- What follows an opening brace. -/
def SpellsMembers : List (List UInt8 × ParseTree) → List UInt8 → Prop
  | [], s => ∃ blanks, AllBlank blanks ∧ s = blanks ++ [Ascii.closeBrace]
  | (key, value) :: rest, s => ∃ blanks t u, AllBlank blanks ∧ SpellsMember key value.Spells t ∧
      SpellsMoreMembers rest u ∧ s = blanks ++ (t ++ u)

/-- What follows a member. -/
def SpellsMoreMembers : List (List UInt8 × ParseTree) → List UInt8 → Prop
  | [], s => ∃ blanks, AllBlank blanks ∧ s = blanks ++ [Ascii.closeBrace]
  | (key, value) :: rest, s => ∃ before blanks t u, AllBlank before ∧ AllBlank blanks ∧
      SpellsMember key value.Spells t ∧ SpellsMoreMembers rest u ∧
      s = before ++ Ascii.comma :: (blanks ++ (t ++ u))

end

/-- The text is one of the tree, with any blanks around it. -/
def SpellsText (tree : ParseTree) (s : List UInt8) : Prop :=
  ∃ before t after, AllBlank before ∧ tree.Spells t ∧ AllBlank after ∧ s = before ++ (t ++ after)

end ParseTree

end JsonSelect
