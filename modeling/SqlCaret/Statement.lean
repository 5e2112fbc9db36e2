import SqlCaret.Span

/-!
# Statement

The statements of a script as a caret meets them: each has a span from its first token to its
last, and some hold other statements.  A batch is a row of statements and a script a row of
batches.
-/

namespace SqlCaret

inductive Statement where
  /-- A statement with no statement inside. -/
  | simple (span : Span)
  /-- Statements between `BEGIN` and `END`. -/
  | block (span : Span) (children : List Statement)
  /-- An `IF`; either branch may be missing. -/
  | conditional (span : Span) (thenBranch elseBranch : Option Statement)
  /-- A `WHILE` with its one statement. -/
  | loop (span : Span) (body : Statement)
deriving Repr

/-- What sort of statement it is. -/
inductive StatementKind where
  | simple | block | conditional | loop
deriving Repr, DecidableEq

def StatementKind.name : StatementKind → String
  | .simple => "simple"
  | .block => "block"
  | .conditional => "conditional"
  | .loop => "loop"

namespace Statement

def span : Statement → Span
  | simple s | block s _ | conditional s _ _ | loop s _ => s

def kind : Statement → StatementKind
  | simple _ => .simple
  | block .. => .block
  | conditional .. => .conditional
  | loop .. => .loop

/-- The statements right inside, in order.  A missing branch is skipped. -/
def children : Statement → List Statement
  | simple _ => []
  | block _ cs => cs
  | conditional _ t e => t.toList ++ e.toList
  | loop _ b => [b]

/-- Whether the statement is of a sort that can hold others, even if it holds none. -/
def isComposite : Statement → Bool
  | simple _ => false
  | _ => true

end Statement

/-- The statements between two separator lines. -/
abbrev Batch := List Statement

structure Script where
  batches : List Batch
deriving Repr

namespace Script

/-- The statements that no other statement holds. -/
def topLevel (s : Script) : List Statement := s.batches.flatten

def isEmpty (s : Script) : Bool := s.batches.all List.isEmpty

end Script

end SqlCaret
