import SqlCaret.Toml.Quoted
import SqlCaret.Toml.Scalar

/-!
# TOML — read

Reading a TOML text as the table it describes.  A text is lines of three sorts: a key with a
value, the header of a table, and the doubled header of one more table in an array; any of them
may be left out, and a comment may end any of them.  Values in brackets and braces go over
several lines, which may end anywhere but inside a key or a value, and may end with a comma.

Brackets and braces go at most `maxDepth` deep, and a dotted key has at most as many parts; each
key and each value counts for itself.
-/

namespace SqlCaret.Toml

/-- Without the blanks in front, which line breaks do not count among. -/
def skipSpace (cs : List Char) : List Char := cs.dropWhile fun c => c == ' ' || c == '\t'

/-- The text after a comment, given the text after its `#`; none if the comment has a control
character in it. -/
def skipComment? : List Char → Option (List Char)
  | [] => some []
  | c :: cs =>
    if lineBreak (c :: cs) ≠ 0 then some (c :: cs)
    else if isPlain c then skipComment? cs
    else none

/-- The text after the end of the line, which blanks and a comment may come before. -/
def endLine? (cs : List Char) : Option (List Char) := do
  let cs ← match skipSpace cs with
    | '#' :: cs => skipComment? cs
    | cs => some cs
  match cs with
  | [] => return []
  | _ => if lineBreak cs = 0 then none else return cs.drop (lineBreak cs)

/-- Without the blanks, comments and line breaks in front; `fuel` bounds the lines. -/
def skipLines? : (fuel : Nat) → List Char → Option (List Char)
  | 0, cs => some cs
  | n + 1, cs =>
    match skipSpace cs with
    | '#' :: rest => do skipLines? n (← skipComment? rest)
    | rest => if lineBreak rest = 0 then some rest else skipLines? n (rest.drop (lineBreak rest))

def isBareKeyChar (c : Char) : Bool := c.isAlphanum || c == '_' || c == '-'

/-- One part of a key, and the text after it. -/
def keyPart? (cs : List Char) : Option (List Char × List Char) :=
  match cs with
  | '"' :: cs => readLine? '"' 0 cs
  | '\'' :: cs => readLine? '\'' 0 cs
  | _ =>
    let part := cs.takeWhile isBareKeyChar
    if part.isEmpty then none else some (part, cs.drop part.length)

/-- How deep values may go, and how many parts a key may have. -/
def maxDepth : Nat := 80

/-- A key with its dots, at most `room` parts, and the text after it and the blanks behind
it. -/
def keyWithin? : (room : Nat) → List Char → Option (List (List Char) × List Char)
  | 0, _ => none
  | n + 1, cs => do
    let (part, rest) ← keyPart? (skipSpace cs)
    match skipSpace rest with
    | '.' :: rest => do
      let (parts, rest) ← keyWithin? n rest
      return (part :: parts, rest)
    | rest => return ([part], rest)

/-- A key with its dots, and the text after it and the blanks behind it. -/
def key? (cs : List Char) : Option (List (List Char) × List Char) := keyWithin? maxDepth cs

mutual

/-- A value at most `room` brackets and braces deep, and the text after it.  `fuel` bounds the
values and the elements in it. -/
def value? : (fuel room : Nat) → List Char → Option (Toml × List Char)
  | 0, _, _ => none
  | n + 1, room, cs =>
    match cs, room with
    | '"' :: cs, _ => (readQuoted? '"' cs).map fun r => (.string r.1, r.2)
    | '\'' :: cs, _ => (readQuoted? '\'' cs).map fun r => (.string r.1, r.2)
    | '[' :: cs, room + 1 => do
      let (es, rest) ← elements? n room (← skipLines? cs.length cs)
      return (.array es, rest)
    | '\x7b' :: cs, room + 1 => do
      let (es, rest) ← members? n room [] (← skipLines? cs.length cs)
      return (.table .closed es, rest)
    | _, _ => takeScalar? cs

/-- Elements up to the closing bracket. -/
def elements? : (fuel room : Nat) → List Char → Option (List Toml × List Char)
  | 0, _, _ => none
  | _ + 1, _, ']' :: cs => some ([], cs)
  | n + 1, room, cs => do
    let (e, rest) ← value? n room cs
    match ← skipLines? rest.length rest with
    | ',' :: rest => do
      let (es, rest) ← elements? n room (← skipLines? rest.length rest)
      return (e :: es, rest)
    | ']' :: rest => return ([e], rest)
    | _ => none

/-- Members up to the closing brace, after those read already. -/
def members? : (fuel room : Nat) → Entries → List Char → Option (Entries × List Char)
  | 0, _, _, _ => none
  | _ + 1, _, es, '\x7d' :: cs => some (es, cs)
  | n + 1, room, es, cs => do
    let (key, rest) ← key? cs
    match ← skipLines? rest.length rest with
    | '=' :: rest => do
      let (v, rest) ← value? n room (← skipLines? rest.length rest)
      let es ← insert? v true key es
      match ← skipLines? rest.length rest with
      | ',' :: rest => members? n room es (← skipLines? rest.length rest)
      | '\x7d' :: rest => return (es, rest)
      | _ => none
    | _ => none

end

/-- A header up to its closing brackets, given the text after the opening ones. -/
def header? (doubled : Bool) (cs : List Char) : Option (List (List Char) × List Char) := do
  let (key, rest) ← key? cs
  match doubled, rest with
  | false, ']' :: rest => return (key, rest)
  | true, ']' :: ']' :: rest => return (key, rest)
  | _, _ => none

/-- The lines of a text, under the header read last; `fuel` bounds the lines. -/
def lines? : (fuel : Nat) → (header : List (List Char)) → Entries → List Char → Option Entries
  | 0, _, _, _ => none
  | n + 1, header, es, cs =>
    match skipSpace cs with
    | [] => some es
    | '[' :: '[' :: rest => do
      let (key, rest) ← header? true rest
      lines? n key (← append? key es) (← endLine? rest)
    | '[' :: rest => do
      let (key, rest) ← header? false rest
      lines? n key (← open? key es) (← endLine? rest)
    | rest =>
      if rest.head? = some '#' ∨ lineBreak rest ≠ 0 then do
        lines? n header es (← endLine? rest)
      else do
        let (key, rest) ← key? rest
        match rest with
        | '=' :: rest => do
          let rest := skipSpace rest
          let (v, rest) ← value? (2 * rest.length + 2) maxDepth rest
          lines? n header (← insertUnder? key v header es) (← endLine? rest)
        | _ => none

/-- The table that a text describes.  A byte order mark in front does not count. -/
def read? (cs : List Char) : Option Entries :=
  let cs :=
    match cs with
    | '\ufeff' :: cs => cs
    | cs => cs
  lines? (cs.length + 1) [] [] cs

end SqlCaret.Toml
