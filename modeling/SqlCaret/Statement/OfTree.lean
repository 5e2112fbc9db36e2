import SqlCaret.LineIndex
import SqlCaret.Statement
import SqlCaret.Syntax.Tree.Row

/-!
# Statement — from syntax trees

The statements of a syntax tree.  Only nodes of a statement kind become statements; conditions,
separators and trivia are left out.  Statements inside an `ERROR` node count among those around
it, so that a caret on one still finds it.

Every function here is given the byte offset that its trees start at.
-/

namespace SqlCaret

namespace Statement

/-- The span of `size` bytes from `start` on. -/
def spanOf (ix : LineIndex) (start size : Nat) : Span :=
  ⟨ix.point start, ix.point (start + size)⟩

mutual

/-- The statement that a node of a statement kind is. -/
def ofTree (ix : LineIndex) (start : Nat) : SyntaxTree → Statement
  | .leaf l => .simple (spanOf ix start (Utf8.size l.text))
  | .node k ts =>
    let span := spanOf ix start (Tree.sizeOfList ts)
    match k with
    | .block | .tryCatch => .block span (ofTrees ix start ts)
    | .ifStatement => .conditional span (first? ix start ts) (elseBranch? ix start ts)
    | .whileStatement =>
      match first? ix start ts with
      | some body => .loop span body
      | none => .simple span
    | _ => .simple span

/-- The statements among trees in a row. -/
def ofTrees (ix : LineIndex) (start : Nat) : List SyntaxTree → List Statement
  | [] => []
  | .leaf l :: ts => ofTrees ix (start + Utf8.size l.text) ts
  | .node k cs :: ts =>
    let here :=
      if k.isStatement then [ofTree ix start (.node k cs)]
      else if k = .error then ofTrees ix start cs
      else []
    here ++ ofTrees ix (start + Tree.sizeOfList cs) ts

/-- The first tree in a row that is a statement itself. -/
def first? (ix : LineIndex) (start : Nat) : List SyntaxTree → Option Statement
  | [] => none
  | .leaf l :: ts => first? ix (start + Utf8.size l.text) ts
  | .node k cs :: ts =>
    if k.isStatement then some (ofTree ix start (.node k cs))
    else first? ix (start + Tree.sizeOfList cs) ts

/-- The statement of the first `ELSE` in a row. -/
def elseBranch? (ix : LineIndex) (start : Nat) : List SyntaxTree → Option Statement
  | [] => none
  | .leaf l :: ts => elseBranch? ix (start + Utf8.size l.text) ts
  | .node k cs :: ts =>
    if k = .elseClause then first? ix start cs
    else elseBranch? ix (start + Tree.sizeOfList cs) ts

end

end Statement

namespace Script

/-- The batches among trees in a row. -/
def batchesOf (ix : LineIndex) (start : Nat) : List SyntaxTree → List Batch
  | [] => []
  | t :: ts =>
    let rest := batchesOf ix (start + Tree.size t) ts
    match t with
    | .node .batch cs => Statement.ofTrees ix start cs :: rest
    | _ => rest

/-- The script that a syntax tree is. -/
def ofTree (ix : LineIndex) (t : SyntaxTree) : Script := ⟨batchesOf ix 0 t.children⟩

end Script

end SqlCaret
