/-
# JsonSelect.Json.Rendering -- JSON values as text

A value has one text on a single line and one that is indented.  They differ only in
the blanks between tokens, so both are one function of a `Spacing`.
-/
import JsonSelect.Json.Basic

namespace JsonSelect

set_option autoImplicit false

/-- How the tokens of a text are set apart. -/
inductive Spacing where
  /-- No blanks at all. -/
  | compact
  /-- A line for each item, member and closing bracket, two more blanks at each depth,
  and a blank after a colon. -/
  | indented
  deriving DecidableEq

namespace Spacing

/-- What starts a line at a depth. -/
def lineStart : Spacing → Nat → List Char
  | .compact, _ => []
  | .indented, depth => '\n' :: List.replicate (2 * depth) ' '

def afterColon : Spacing → List Char
  | .compact => []
  | .indented => [' ']

end Spacing

namespace Json

/-! ## Strings -/

/-- The two characters that stand for a control character after `\u00`. -/
def hexPair (n : Nat) : List Char := [Nat.digitChar (n / 16), Nat.digitChar (n % 16)]

/-- Quotes, backslashes and control characters are escaped, with a letter where
there is one. -/
def escapeChar (c : Char) : List Char :=
  if c = '"' then ['\\', '"']
  else if c = '\\' then ['\\', '\\']
  else if c = '\x08' then ['\\', 'b']
  else if c = '\t' then ['\\', 't']
  else if c = '\n' then ['\\', 'n']
  else if c = '\x0c' then ['\\', 'f']
  else if c = '\r' then ['\\', 'r']
  else if c.toNat < 0x20 then ['\\', 'u', '0', '0'] ++ hexPair c.toNat
  else [c]

def quoted (s : String) : List Char := '"' :: (s.toList.flatMap escapeChar ++ ['"'])

/-! ## Values -/

mutual

/-- The text of a value whose own line is at a depth. -/
def textAt (spacing : Spacing) (depth : Nat) : Json → List Char
  | .null => ['n', 'u', 'l', 'l']
  | .bool true => ['t', 'r', 'u', 'e']
  | .bool false => ['f', 'a', 'l', 's', 'e']
  | .number n => n.text
  | .string s => quoted s
  | .array items => '[' :: itemsText spacing depth items
  | .object members => '{' :: membersText spacing depth members

/-- What follows an opening bracket. -/
def itemsText (spacing : Spacing) (depth : Nat) : List Json → List Char
  | [] => [']']
  | v :: rest =>
      spacing.lineStart (depth + 1) ++ textAt spacing (depth + 1) v ++
        moreItemsText spacing depth rest

/-- What follows an item. -/
def moreItemsText (spacing : Spacing) (depth : Nat) : List Json → List Char
  | [] => spacing.lineStart depth ++ [']']
  | v :: rest =>
      ',' :: (spacing.lineStart (depth + 1) ++ textAt spacing (depth + 1) v ++
        moreItemsText spacing depth rest)

/-- What follows an opening brace. -/
def membersText (spacing : Spacing) (depth : Nat) : List (String × Json) → List Char
  | [] => ['}']
  | (key, v) :: rest =>
      spacing.lineStart (depth + 1) ++ quoted key ++ ':' :: (spacing.afterColon ++
        textAt spacing (depth + 1) v ++ moreMembersText spacing depth rest)

/-- What follows a member. -/
def moreMembersText (spacing : Spacing) (depth : Nat) : List (String × Json) → List Char
  | [] => spacing.lineStart depth ++ ['}']
  | (key, v) :: rest =>
      ',' :: (spacing.lineStart (depth + 1) ++ quoted key ++ ':' :: (spacing.afterColon ++
        textAt spacing (depth + 1) v ++ moreMembersText spacing depth rest))

end

/-- The text of a value. -/
def render (spacing : Spacing) (v : Json) : List Char := v.textAt spacing 0

/-- The text of a value on a single line, without blanks. -/
def compact (v : Json) : String := String.ofList (v.render .compact)

end Json

end JsonSelect
