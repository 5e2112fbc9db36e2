import SqlCaret.Scope
import SqlCaret.Statement

/-!
# Locate

The statement around a caret.  Statements are tried in order and the first that contains the
caret is the answer, always with its own span.  In the inner scope the statements inside a
statement are tried before it, so the answer is the innermost.
-/

namespace SqlCaret

namespace Statement

/-- The span of a statement, if it contains `p`. -/
def ownSpan? (p : Point) (s : Statement) : Option Span :=
  if s.span.contains p then some s.span else none

mutual

/-- The first span that contains `p` among those inside a statement and then its own. -/
def innermost? (p : Point) : Statement → Option Span
  | s@(simple _) => ownSpan? p s
  | s@(block _ cs) => (innermostOfList? p cs).or (ownSpan? p s)
  | s@(conditional _ t e) =>
    ((innermostOfBranch? p t).or (innermostOfBranch? p e)).or (ownSpan? p s)
  | s@(loop _ b) => (innermost? p b).or (ownSpan? p s)

def innermostOfList? (p : Point) : List Statement → Option Span
  | [] => none
  | s :: ss => (innermost? p s).or (innermostOfList? p ss)

def innermostOfBranch? (p : Point) : Option Statement → Option Span
  | none => none
  | some s => innermost? p s

end

/-- The span of the statement around `p` among statements in a row. -/
def locate (scope : Scope) (p : Point) (ss : List Statement) : Option Span :=
  match scope with
  | .block => ss.findSome? (ownSpan? p)
  | .inner => innermostOfList? p ss

end Statement

/-- The span of the statement around `p`: the batches are tried in order. -/
def Script.locate (scope : Scope) (p : Point) (s : Script) : Option Span :=
  s.batches.findSome? (Statement.locate scope p)

end SqlCaret
