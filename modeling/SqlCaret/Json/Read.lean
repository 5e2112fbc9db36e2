import SqlCaret.Json

/-!
# JSON — read

Reading a value from the front of a text.  What follows the value is left to the caller.

Numbers have no leading zero and no plus sign.  A string or a name may hold every character but
control characters; an escape for a surrogate must be followed by the escape for its partner,
and one without a partner makes it spell nothing.
-/

namespace SqlCaret.Json

def isBlank (c : Char) : Bool := c == ' ' || c == '\n' || c == '\t' || c == '\r'

def skipBlanks (cs : List Char) : List Char := cs.dropWhile isBlank

/-- The text after `word`, if it begins with it. -/
def afterWord? (word cs : List Char) : Option (List Char) :=
  if word.isPrefixOf cs then some (cs.drop word.length) else none

/-- The value of a hexadecimal digit. -/
def hexValue? (c : Char) : Option Nat :=
  if c.isDigit then some (c.toNat - '0'.toNat)
  else if 'a' ≤ c ∧ c ≤ 'f' then some (c.toNat - 'a'.toNat + 10)
  else if 'A' ≤ c ∧ c ≤ 'F' then some (c.toNat - 'A'.toNat + 10)
  else none

/-- The value of four hexadecimal digits. -/
def hexValue4? (a b c d : Char) : Option Nat := do
  let a ← hexValue? a
  let b ← hexValue? b
  let c ← hexValue? c
  let d ← hexValue? d
  return ((a * 16 + b) * 16 + c) * 16 + d

/-- A character of a string, or the number that an escape gives for one. -/
inductive Piece where
  | char (c : Char)
  | code (n : Nat)
deriving Repr, DecidableEq

/-- The character that a backslash and a letter stand for. -/
def escaped? (c : Char) : Option Char :=
  if c = '"' ∨ c = '\\' ∨ c = '/' then some c
  else if c = 'b' then some '\x08'
  else if c = 'f' then some '\x0c'
  else if c = 'n' then some '\n'
  else if c = 'r' then some '\r'
  else if c = 't' then some '\t'
  else none

/-- The pieces of a string up to its closing quote, and the text after it. -/
def pieces? : List Char → Option (List Piece × List Char)
  | [] => none
  | '"' :: cs => some ([], cs)
  | '\\' :: 'u' :: a :: b :: c :: d :: cs => do
    let n ← hexValue4? a b c d
    let (ps, rest) ← pieces? cs
    return (.code n :: ps, rest)
  | '\\' :: e :: cs => do
    let c ← escaped? e
    let (ps, rest) ← pieces? cs
    return (.char c :: ps, rest)
  | c :: cs =>
    if c = '\\' ∨ c.toNat < 0x20 then none
    else do
      let (ps, rest) ← pieces? cs
      return (.char c :: ps, rest)

/-- The text of the pieces of a string; none when a surrogate lacks its partner. -/
def joinPieces? : List Piece → Option (List Char)
  | [] => some []
  | .char c :: ps => (joinPieces? ps).map (c :: ·)
  | .code n :: ps =>
    if 0xD800 ≤ n ∧ n < 0xDC00 then
      match ps with
      | .code m :: ps =>
        if 0xDC00 ≤ m ∧ m < 0xE000 then
          (joinPieces? ps).map (Char.ofNat (0x10000 + (n - 0xD800) * 0x400 + (m - 0xDC00)) :: ·)
        else none
      | _ => none
    else if 0xDC00 ≤ n ∧ n < 0xE000 then none
    else (joinPieces? ps).map (Char.ofNat n :: ·)

/-- A row of digits, which may be empty, and the text after it. -/
def spanDigits (cs : List Char) : List Char × List Char :=
  (cs.takeWhile Char.isDigit, cs.dropWhile Char.isDigit)

/-- The integer part of a number: a zero alone, or digits that begin with none. -/
def integer? (cs : List Char) : Option (List Char × List Char) :=
  let r := spanDigits cs
  match r.1 with
  | [] => none
  | '0' :: _ :: _ => none
  | _ => some r

/-- The fraction of a number, if there is one. -/
def fraction? (cs : List Char) : Option (List Char × List Char) :=
  match cs with
  | '.' :: cs =>
    let r := spanDigits cs
    if r.1.isEmpty then none else some ('.' :: r.1, r.2)
  | _ => some ([], cs)

/-- The exponent of a number, if there is one. -/
def exponent? (cs : List Char) : Option (List Char × List Char) :=
  match cs with
  | e :: rest =>
    if e = 'e' ∨ e = 'E' then
      let sign := rest.takeWhile fun c => c == '+' || c == '-'
      let r := spanDigits (rest.drop sign.length)
      if sign.length ≤ 1 && !r.1.isEmpty then some (e :: (sign ++ r.1), r.2) else none
    else some ([], cs)
  | [] => some ([], [])

/-- The number that decimal digits spell. -/
def naturalOf (digits : List Char) : Nat :=
  digits.foldl (fun n c => n * 10 + (c.toNat - '0'.toNat)) 0

/-- A number and the text after it. -/
def number? (cs : List Char) : Option (Json × List Char) := do
  let (sign, unsigned) :=
    match cs with
    | '-' :: rest => (['-'], rest)
    | _ => ([], cs)
  let (whole, cs) ← integer? unsigned
  let (frac, cs) ← fraction? cs
  let (exp, cs) ← exponent? cs
  if sign.isEmpty && frac.isEmpty && exp.isEmpty then return (.natural (naturalOf whole), cs)
  else return (.number (sign ++ whole ++ frac ++ exp), cs)

mutual

/-- A value, at most `depth` steps deep, and the text after it. -/
def valueWithin? : (depth : Nat) → List Char → Option (Json × List Char)
  | 0, _ => none
  | n + 1, cs =>
    match skipBlanks cs with
    | '"' :: cs => do
      let (ps, rest) ← pieces? cs
      return (.string (joinPieces? ps), rest)
    | '[' :: cs =>
      match skipBlanks cs with
      | ']' :: rest => some (.array [], rest)
      | cs => do
        let (es, rest) ← elementsWithin? n cs
        return (.array es, rest)
    | '\x7b' :: cs =>
      match skipBlanks cs with
      | '\x7d' :: rest => some (.object [], rest)
      | cs => do
        let (ms, rest) ← membersWithin? n cs
        return (.object ms, rest)
    | cs =>
      match afterWord? "null".toList cs with
      | some rest => some (.null, rest)
      | none =>
        match afterWord? "true".toList cs with
        | some rest => some (.bool true, rest)
        | none =>
          match afterWord? "false".toList cs with
          | some rest => some (.bool false, rest)
          | none => number? cs

/-- Elements up to the closing bracket. -/
def elementsWithin? : (depth : Nat) → List Char → Option (List Json × List Char)
  | 0, _ => none
  | n + 1, cs => do
    let (e, rest) ← valueWithin? n cs
    match skipBlanks rest with
    | ',' :: rest =>
      let (es, rest) ← elementsWithin? n rest
      return (e :: es, rest)
    | ']' :: rest => return ([e], rest)
    | _ => none

/-- Members up to the closing brace. -/
def membersWithin? : (depth : Nat) → List Char → Option (List (Spelled × Json) × List Char)
  | 0, _ => none
  | n + 1, cs =>
    match skipBlanks cs with
    | '"' :: cs => do
      let (ps, rest) ← pieces? cs
      let name := joinPieces? ps
      match skipBlanks rest with
      | ':' :: rest =>
        let (v, rest) ← valueWithin? n rest
        match skipBlanks rest with
        | ',' :: rest =>
          let (ms, rest) ← membersWithin? n rest
          return ((name, v) :: ms, rest)
        | '\x7d' :: rest => return ([(name, v)], rest)
        | _ => none
      | _ => none
    | _ => none

end

/-- The value at the front of a text, and the text after it.  Every second step into a value
takes a character, which bounds how deep it can be. -/
def read? (cs : List Char) : Option (Json × List Char) := valueWithin? (2 * cs.length + 2) cs

end SqlCaret.Json
