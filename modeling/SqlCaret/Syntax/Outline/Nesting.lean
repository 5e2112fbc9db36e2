import SqlCaret.Syntax.Outline

/-!
# Syntax — outline — nesting

The parentheses and the `CASE … END` that are open inside a statement or a condition.  A
keyword can only end the statement outside of all parentheses, and `ELSE` and `END` only
outside of every `CASE` as well.

`pass` keeps the account for one mark, and `finish` adds what is still open at the end.
-/

namespace SqlCaret

structure Nesting where
  /-- The indices of the `(` that are open, the innermost first. -/
  parens : List Nat := []
  /-- How many `CASE` are open. -/
  cases : Nat := 0
  /-- The problems met so far, the latest first. -/
  problems : List Problem := []
deriving Repr, DecidableEq

namespace Nesting

/-- Outside of all parentheses. -/
def atTop (n : Nesting) : Bool := n.parens.isEmpty

/-- Outside of every `CASE`. -/
def outsideCase (n : Nesting) : Bool := n.cases == 0

/-- Accounts for the mark ahead of `c`. -/
def pass (n : Nesting) (c : Cursor) : Nesting :=
  match c.kind 0 with
  | .leftParen => { n with parens := c.index :: n.parens }
  | .rightParen =>
    match n.parens with
    | [] => { n with problems := ⟨.parenAlone, c.index⟩ :: n.problems }
    | _ :: ps => { n with parens := ps }
  | .word =>
    if c.atKeyword .CASE then { n with cases := n.cases + 1 }
    else if c.atKeyword .END then { n with cases := n.cases - 1 }
    else n
  | _ => n

/-- All problems in the order they were met, and then one for each `(` still open, in the
order these stand. -/
def finish (n : Nesting) : List Problem :=
  n.problems.reverse ++ n.parens.reverse.map (⟨.parenOpen, ·⟩)

end Nesting

end SqlCaret
