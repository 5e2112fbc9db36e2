import SqlCaret.Json

/-!
# JSON — write

Two ways to write a value.  `compact` has no white space at all.  `pretty` has each element and
each member on a line of its own, two more blanks in per level, and empty arrays and objects
closed right away.

Both write a string alike (`quote`): every character as it is, but quotes, backslashes and
control characters escaped.
-/

namespace SqlCaret.Json

def hexDigit (n : Nat) : Char := "0123456789abcdef".toList.getD n '0'

/-- A character inside a string. -/
def escape (c : Char) : List Char :=
  if c = '"' then ['\\', '"']
  else if c = '\\' then ['\\', '\\']
  else if c = '\x08' then ['\\', 'b']
  else if c = '\x0c' then ['\\', 'f']
  else if c = '\n' then ['\\', 'n']
  else if c = '\r' then ['\\', 'r']
  else if c = '\t' then ['\\', 't']
  else if c.toNat < 0x20 then
    ['\\', 'u', '0', '0', hexDigit (c.toNat / 16), hexDigit (c.toNat % 16)]
  else [c]

/-- A string between its quotes; one that spells no text is written as the empty one. -/
def quote (s : Spelled) : List Char := '"' :: ((s.getD []).flatMap escape ++ ['"'])

/-- A natural number in decimal digits. -/
def digits (n : Nat) : List Char := Nat.toDigits 10 n

/-- A value without white space. -/
def compact : Json → List Char
  | .null => "null".toList
  | .bool true => "true".toList
  | .bool false => "false".toList
  | .natural n => digits n
  | .number w => w
  | .string s => quote s
  | .array es => '[' :: (elements es ++ [']'])
  | .object ms => '\x7b' :: (members ms ++ ['\x7d'])
where
  elements : List Json → List Char
    | [] => []
    | [e] => compact e
    | e :: es => compact e ++ ',' :: elements es
  members : List (Spelled × Json) → List Char
    | [] => []
    | [(k, v)] => quote k ++ ':' :: compact v
    | (k, v) :: ms => quote k ++ ':' :: (compact v ++ ',' :: members ms)

/-- A new line, `level` levels in. -/
def newline (level : Nat) : List Char := '\n' :: List.replicate (2 * level) ' '

/-- A value over several lines, `level` levels in. -/
def pretty (level : Nat) : Json → List Char
  | .array (e :: es) =>
    '[' :: (newline (level + 1) ++ pretty (level + 1) e ++
      (elements (level + 1) es ++ newline level ++ [']']))
  | .object ((k, v) :: ms) =>
    '\x7b' :: (newline (level + 1) ++ quote k ++ [':', ' '] ++ pretty (level + 1) v ++
      (members (level + 1) ms ++ newline level ++ ['\x7d']))
  | .array [] => ['[', ']']
  | .object [] => ['\x7b', '\x7d']
  | v => compact v
where
  elements (level : Nat) : List Json → List Char
    | [] => []
    | e :: es => ',' :: (newline level ++ pretty level e ++ elements level es)
  members (level : Nat) : List (Spelled × Json) → List Char
    | [] => []
    | (k, v) :: ms =>
      ',' :: (newline level ++ quote k ++ [':', ' '] ++ pretty level v ++ members level ms)

end SqlCaret.Json
