import SqlCaret.Statement

/-!
# Statement — walk

All statements of a script, each before those inside it.  `preorder` says what the order is, by
the structure of a statement; `Script.walk` visits with a stack of the statements still to
come, and stops because every visit makes the stack smaller.
-/

namespace SqlCaret

namespace Statement

mutual

/-- A statement and then all that is inside it. -/
def preorder : Statement → List Statement
  | s@(simple _) => [s]
  | s@(block _ cs) => s :: preorderOfList cs
  | s@(conditional _ t e) => s :: (preorderOfBranch t ++ preorderOfBranch e)
  | s@(loop _ b) => s :: preorder b

def preorderOfList : List Statement → List Statement
  | [] => []
  | s :: ss => preorder s ++ preorderOfList ss

def preorderOfBranch : Option Statement → List Statement
  | none => []
  | some s => preorder s

end

/-- How many statements a statement is, itself and those inside. -/
def count (s : Statement) : Nat := s.preorder.length

/-- How many statements a row of statements is. -/
def countAll (ss : List Statement) : Nat := (preorderOfList ss).length

theorem preorderOfList_append (a b : List Statement) :
    preorderOfList (a ++ b) = preorderOfList a ++ preorderOfList b := by
  induction a with
  | nil => simp [preorderOfList]
  | cons s ss ih => simp [preorderOfList, ih, List.append_assoc]

/-- A statement comes first, and then its children's statements in order. -/
theorem preorder_eq (s : Statement) : s.preorder = s :: preorderOfList s.children := by
  cases s with
  | simple sp => simp [preorder, children, preorderOfList]
  | block sp cs => simp [preorder, children]
  | conditional sp t e =>
    cases t <;> cases e <;> simp [preorder, children, preorderOfList, preorderOfBranch]
  | loop sp b => simp [preorder, children, preorderOfList]

/-- The statements of a stack, the top first: each visit takes the top and leaves its children
in its place. -/
def visit : List Statement → List Statement
  | [] => []
  | s :: stack => s :: visit (s.children ++ stack)
termination_by stack => countAll stack
decreasing_by
  simp [countAll, preorderOfList_append, preorderOfList, preorder_eq s]

end Statement

namespace Script

/-- Every statement of a script, each before those inside it. -/
def walk (s : Script) : List Statement := Statement.visit s.topLevel

end Script

end SqlCaret
