import SqlCaret.Json.Read
import SqlCaret.Text.Utf8

/-!
# TOML — quoted text

Strings and how they are read and written.  A basic string stands between double quotes and has
escapes, a literal one between single quotes and has none; with three quotes either goes over
several lines, and a line break right after the opening quotes does not count.

`write` takes the plainest form that can hold the text: basic without escapes, literal, then
the same over several lines, and a basic string with escapes only when nothing else will do.
-/

namespace SqlCaret.Toml

/-- Whether a string can hold the character as it is; line breaks are another matter. -/
def isPlain (c : Char) : Bool := c == '\t' || (0x20 ≤ c.toNat && c.toNat != 0x7F)

/-- The character with a number, if there is one. -/
def charOf? (n : Nat) : Option Char :=
  if h : n.isValidChar then some (Char.ofNatAux n h) else none

/-- The character that hexadecimal digits give. -/
def hexChar? (ds : List Char) : Option Char := do
  let values ← ds.mapM Json.hexValue?
  charOf? (values.foldl (fun n d => n * 16 + d) 0)

/-- The character of an escape, given the text after the backslash, and how many characters the
escape has. -/
def escape? (cs : List Char) : Option (Char × Nat) :=
  match cs with
  | [] => none
  | c :: cs =>
    let numbered (n : Nat) : Option (Char × Nat) :=
      if n ≤ cs.length then (hexChar? (cs.take n)).map (·, n + 1) else none
    if c = 'b' then some ('\x08', 1)
    else if c = 't' then some ('\t', 1)
    else if c = 'n' then some ('\n', 1)
    else if c = 'f' then some ('\x0c', 1)
    else if c = 'r' then some ('\r', 1)
    else if c = 'e' then some ('\x1b', 1)
    else if c = '"' then some ('"', 1)
    else if c = '\\' then some ('\\', 1)
    else if c = 'x' then numbered 2
    else if c = 'u' then numbered 4
    else if c = 'U' then numbered 8
    else none

/-- The length of the line break in front of a text; zero if there is none. -/
def lineBreak : List Char → Nat
  | '\n' :: _ => 1
  | '\r' :: '\n' :: _ => 2
  | _ => 0

/-- A string up to its closing quote, and the text after it.  The first `skipped` characters
belong to an escape that was read. -/
def readLine? (quote : Char) : (skipped : Nat) → List Char → Option (List Char × List Char)
  | _, [] => none
  | n + 1, _ :: cs => readLine? quote n cs
  | 0, c :: cs =>
    if c = quote then some ([], cs)
    else if c = '\\' ∧ quote = '"' then do
      let (d, n) ← escape? cs
      let (text, rest) ← readLine? quote n cs
      return (d :: text, rest)
    else if isPlain c then (readLine? quote 0 cs).map fun r => (c :: r.1, r.2)
    else none

/-- The length of the blanks and line breaks in front of a text. -/
def spaceLength : List Char → Nat
  | ' ' :: cs | '\t' :: cs | '\n' :: cs => spaceLength cs + 1
  | '\r' :: '\n' :: cs => spaceLength cs + 2
  | _ => 0

/-- How many characters a backslash at the end of a line passes over: the blanks and line breaks
up to the next character that is neither; zero if the line does not end there. -/
def continuation (cs : List Char) : Nat :=
  let blanks := (cs.takeWhile fun c => c == ' ' || c == '\t').length
  if lineBreak (cs.drop blanks) = 0 then 0 else spaceLength cs

/-- A string over several lines, up to its closing quotes.  Up to two quotes may stand right
before these. -/
def readLines? (quote : Char) : (skipped : Nat) → List Char → Option (List Char × List Char)
  | _, [] => none
  | n + 1, _ :: cs => readLines? quote n cs
  | 0, c :: cs =>
    let quotes := ((c :: cs).takeWhile (· == quote)).length
    if 3 ≤ quotes then
      if quotes ≤ 5 then some (List.replicate (quotes - 3) quote, (c :: cs).drop quotes)
      else none
    else if c = '\\' ∧ quote = '"' then
      let passed := continuation cs
      if passed = 0 then do
        let (d, n) ← escape? cs
        let (text, rest) ← readLines? quote n cs
        return (d :: text, rest)
      else readLines? quote passed cs
    else if isPlain c then (readLines? quote 0 cs).map fun r => (c :: r.1, r.2)
    else if lineBreak (c :: cs) = 0 then none
    else (readLines? quote 0 cs).map fun r => (c :: r.1, r.2)

/-- The string that begins with `quote`, given the text after it. -/
def readQuoted? (quote : Char) (cs : List Char) : Option (List Char × List Char) :=
  match cs with
  | a :: b :: rest =>
    if a = quote ∧ b = quote then readLines? quote (lineBreak rest) rest
    else readLine? quote 0 cs
  | _ => readLine? quote 0 cs

/-- The most of `q` in a row. -/
def longestRun (q : Char) (cs : List Char) : Nat :=
  (cs.foldl (fun (run, best) c =>
    if c = q then (run + 1, max best (run + 1)) else (0, best)) ((0, 0) : Nat × Nat)).2

/-- A character of a basic string; `lines` says whether line breaks are kept. -/
def escapeChar (lines : Bool) (c : Char) : List Char :=
  if c = '\x08' then ['\\', 'b']
  else if c = '\t' then ['\\', 't']
  else if c = '\n' then if lines then [c] else ['\\', 'n']
  else if c = '\x0c' then ['\\', 'f']
  else if c = '\r' then ['\\', 'r']
  else if c = '\\' then ['\\', '\\']
  else if c.toNat < 0x20 ∨ c.toNat = 0x7F then
    ['\\', 'u', '0', '0', (Nat.toDigits 16 (c.toNat / 16)).headD '0' |>.toUpper,
      (Nat.toDigits 16 (c.toNat % 16)).headD '0' |>.toUpper]
  else [c]

/-- The inside of a basic string with at most `most` quotes in a row as they are. -/
def escapeText (lines : Bool) (most : Nat) : (row : Nat) → List Char → List Char
  | _, [] => []
  | row, c :: cs =>
    if c = '"' then
      if row + 1 > most then '\\' :: '"' :: escapeText lines most 0 cs
      else '"' :: escapeText lines most (row + 1) cs
    else escapeChar lines c ++ escapeText lines most 0 cs

/-- A text as a string.  A line break comes after the opening quotes of a string over several
lines if the text has line breaks of its own. -/
def write (s : List Char) : List Char :=
  let isControl (c : Char) : Bool := c != '\n' && !isPlain c
  let controls := s.any isControl
  let breaks := s.contains '\n'
  let opening := if breaks then ['\n'] else []
  let doubles := longestRun '"' s
  let singles := longestRun '\'' s
  let backslashes := s.contains '\\'
  if !controls && !backslashes && doubles = 0 && !breaks then
    '"' :: (escapeText false 0 0 s ++ ['"'])
  else if !controls && singles = 0 && !breaks then '\'' :: (s ++ ['\''])
  else if !controls && !backslashes && doubles ≤ 2 then
    ['"', '"', '"'] ++ opening ++ escapeText true 2 0 s ++ ['"', '"', '"']
  else if !controls && singles ≤ 2 then
    ['\'', '\'', '\''] ++ opening ++ s ++ ['\'', '\'', '\'']
  else if breaks then ['"', '"', '"'] ++ opening ++ escapeText true 2 0 s ++ ['"', '"', '"']
  else '"' :: (escapeText false 0 0 s ++ ['"'])

end SqlCaret.Toml
