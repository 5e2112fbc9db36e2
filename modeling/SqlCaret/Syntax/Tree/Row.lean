import SqlCaret.Syntax.Tree.OfEvents
import SqlCaret.Text.Utf8

/-!
# Syntax — trees — rows

A syntax tree as a flat list, a node before its content: how deep each node and token stands,
its kind, the bytes it covers and the text of a token.
-/

namespace SqlCaret

namespace Tree

mutual

/-- The bytes that a syntax tree covers. -/
def size : SyntaxTree → Nat
  | leaf l => Utf8.size l.text
  | node _ ts => sizeOfList ts

def sizeOfList : List SyntaxTree → Nat
  | [] => 0
  | t :: ts => size t + sizeOfList ts

end

/-- One node or token of a tree. -/
structure Row where
  depth : Nat
  kind : Kind
  start : Nat
  stop : Nat
  /-- The text of a token. -/
  text : Option (List Char)
deriving Repr, DecidableEq

mutual

/-- The rows of a tree that starts at byte `start` and stands `depth` deep. -/
def rows (depth start : Nat) : SyntaxTree → List Row
  | leaf l => [⟨depth, l.kind, start, start + Utf8.size l.text, some l.text⟩]
  | node k ts =>
    ⟨depth, k, start, start + sizeOfList ts, none⟩ :: rowsOfList (depth + 1) start ts

def rowsOfList (depth start : Nat) : List SyntaxTree → List Row
  | [] => []
  | t :: ts => rows depth start t ++ rowsOfList depth (start + size t) ts

end

end Tree

end SqlCaret
