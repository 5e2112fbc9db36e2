import SqlCaret.Syntax.Kind

/-!
# Syntax — trees

Nodes with a kind and children in order, over leaves of any type.  The same trees serve twice:
with marks for leaves they are what the grammar finds, and with lexemes for leaves they are the
syntax tree of a text, blanks and comments included.
-/

namespace SqlCaret

inductive Tree (α : Type) where
  | leaf (a : α)
  | node (kind : Kind) (children : List (Tree α))
deriving Repr

namespace Tree

variable {α : Type}

/-- The kind of a node; a leaf has none. -/
def kind? : Tree α → Option Kind
  | leaf _ => none
  | node k _ => some k

def children : Tree α → List (Tree α)
  | leaf _ => []
  | node _ ts => ts

mutual

/-- The leaves from left to right. -/
def leaves : Tree α → List α
  | leaf a => [a]
  | node _ ts => leavesOfList ts

/-- The leaves of trees in a row. -/
def leavesOfList : List (Tree α) → List α
  | [] => []
  | t :: ts => leaves t ++ leavesOfList ts

end

@[simp] theorem leaves_leaf (a : α) : leaves (leaf a) = [a] := by simp [leaves]

@[simp] theorem leaves_node (k : Kind) (ts : List (Tree α)) :
    leaves (node k ts) = leavesOfList ts := by simp [leaves]

@[simp] theorem leavesOfList_nil : leavesOfList ([] : List (Tree α)) = [] := by
  simp [leavesOfList]

@[simp] theorem leavesOfList_cons (t : Tree α) (ts : List (Tree α)) :
    leavesOfList (t :: ts) = leaves t ++ leavesOfList ts := by simp [leavesOfList]

@[simp] theorem leavesOfList_append (ts us : List (Tree α)) :
    leavesOfList (ts ++ us) = leavesOfList ts ++ leavesOfList us := by
  induction ts with
  | nil => simp
  | cons t ts ih => simp [ih, List.append_assoc]

end Tree

end SqlCaret
