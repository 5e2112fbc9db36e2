import SqlCaret.Text.Utf8

/-!
# Text — lines

A line feed ends a line and nothing else does.  `lines` cuts a text into its lines: each knows
the byte offset it starts at, its characters without the line feed, and whether a line feed
ended it.  The last line never has one, so there is always a last line and it may be empty.
-/

namespace SqlCaret

structure Line where
  /-- Byte offset of the first character. -/
  start : Nat
  chars : List Char
  /-- Whether a line feed follows. -/
  ended : Bool
deriving Repr, DecidableEq

namespace Line

/-- The lines of a text that starts at byte `start`. -/
def split (start : Nat) : List Char → List Line
  | [] => [⟨start, [], false⟩]
  | c :: cs =>
    if c = '\n' then ⟨start, [], true⟩ :: split (start + 1) cs
    else
      match split (start + c.utf8Size) cs with
      | [] => [⟨start, [c], false⟩]
      | l :: ls => ⟨start, c :: l.chars, l.ended⟩ :: ls

theorem split_ne_nil (start : Nat) (cs : List Char) : split start cs ≠ [] := by
  cases cs with
  | nil => simp [split]
  | cons c cs =>
    simp only [split]
    split
    · simp
    · split <;> simp

/-- The number of lines before the one that byte `offset` is on, and that line: the last line
that starts at or before `offset`. -/
def locate (offset : Nat) : List Line → Nat × Line
  | [] => (0, ⟨0, [], false⟩)
  | [l] => (0, l)
  | l :: m :: ls =>
    if m.start ≤ offset then
      let r := locate offset (m :: ls)
      (r.1 + 1, r.2)
    else (0, l)

/-- How many of `cs` fit in front of a point `bytes` into them. -/
def column (bytes : Nat) (cs : List Char) : Nat := (Utf8.takeBytes bytes cs).length

/-- A line's characters without the carriage return that belongs to its line feed. -/
def content (l : Line) : List Char :=
  if l.ended && l.chars.getLast? == some '\r' then l.chars.dropLast else l.chars

end Line

/-- The lines of a text. -/
def lines (text : List Char) : List Line := Line.split 0 text

theorem lines_ne_nil (text : List Char) : lines text ≠ [] := Line.split_ne_nil 0 text

end SqlCaret
