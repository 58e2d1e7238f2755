/-
# JsonSelect.Text.Quoted -- text inside messages

A message shows a character or a text between delimiters.  The delimiter, the
backslash and what cannot be shown is escaped, so that a message is one line and
tells what it is about.
-/
import JsonSelect.Text.Hidden

namespace JsonSelect

set_option autoImplicit false

namespace Quoted

def escaped (delimiter c : Char) : List Char :=
  if c = '\x00' then ['\\', '0']
  else if c = '\t' then ['\\', 't']
  else if c = '\n' then ['\\', 'n']
  else if c = '\r' then ['\\', 'r']
  else if c = '\\' ∨ c = delimiter then ['\\', c]
  else if isHidden c then ['\\', 'u', '{'] ++ Nat.toDigits 16 c.toNat ++ ['}']
  else [c]

/-- A character between single quotes. -/
def char (c : Char) : List Char := '\'' :: (escaped '\'' c ++ ['\''])

/-- A text between double quotes. -/
def text (t : String) : List Char := '"' :: (t.toList.flatMap (escaped '"') ++ ['"'])

end Quoted

end JsonSelect
