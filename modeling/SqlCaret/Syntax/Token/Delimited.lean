/-!
# Syntax — tokens — delimited text

Where a literal, a quoted name or a block comment ends.  Each function is given the text after
the opening delimiter and answers how many characters it takes, the closing delimiter
included, and whether there is one.  Text that never closes is taken whole.
-/

namespace SqlCaret.Delimited

/-- How far a delimited text reaches. -/
structure Extent where
  length : Nat
  closed : Bool
deriving Repr, DecidableEq

/-- The same end, seen from `n` characters earlier. -/
def Extent.after (e : Extent) (n : Nat) : Extent := ⟨e.length + n, e.closed⟩

/-- Up to the first `close` that is not doubled; two in a row stand for the character. -/
def quoted (close : Char) : List Char → Extent
  | [] => ⟨0, false⟩
  | [c] => ⟨1, c == close⟩
  | c :: d :: cs =>
    if c = close then
      if d = close then (quoted close cs).after 2 else ⟨1, true⟩
    else (quoted close (d :: cs)).after 1

/-- Up to the `*/` that brings the nesting depth back to zero. -/
def comment (depth : Nat) : List Char → Extent
  | [] => ⟨0, false⟩
  | [_] => ⟨1, false⟩
  | c :: d :: cs =>
    if c = '/' ∧ d = '*' then (comment (depth + 1) cs).after 2
    else if c = '*' ∧ d = '/' then
      if depth ≤ 1 then ⟨2, true⟩ else (comment (depth - 1) cs).after 2
    else (comment depth (d :: cs)).after 1

theorem quoted_length_le (close : Char) (cs : List Char) :
    (quoted close cs).length ≤ cs.length := by
  fun_induction quoted close cs <;> simp_all [Extent.after]

theorem comment_length_le (depth : Nat) (cs : List Char) :
    (comment depth cs).length ≤ cs.length := by
  fun_induction comment depth cs <;> simp_all [Extent.after]

end SqlCaret.Delimited
