import SqlCaret.Text.Hidden

/-!
# Text — quoted

A text in double quotes for a message, with nothing in it that a reader could miss: quotes and
backslashes are escaped, and hidden characters are written by their number.
-/

namespace SqlCaret.Quoted

/-- A character between the quotes. -/
def escape (c : Char) : List Char :=
  if c = '\x00' then ['\\', '0']
  else if c = '\t' then ['\\', 't']
  else if c = '\n' then ['\\', 'n']
  else if c = '\r' then ['\\', 'r']
  else if c = '"' ∨ c = '\\' then ['\\', c]
  else if Hidden.isHidden c then
    ['\\', 'u', '\x7b'] ++ Nat.toDigits 16 c.toNat ++ ['\x7d']
  else [c]

/-- A text between quotes. -/
def quote (cs : List Char) : List Char := '"' :: (cs.flatMap escape ++ ['"'])

end SqlCaret.Quoted
