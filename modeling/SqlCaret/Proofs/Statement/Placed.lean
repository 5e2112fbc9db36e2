import SqlCaret.Proofs.Statement.Fits

/-!
# Statement — placed

The statements of a script and where each hangs.  `Statement.placed` walks through a statement and
tells of each that it meets in which statement it hangs, and whether on an `ELSE`.  What it meets is
what the walk meets (`Script.map_statement_placed`).
-/

namespace SqlCaret

/-- A statement of a script where it hangs. -/
structure Placed where
  statement : Statement
  /-- The statement that it hangs in. -/
  parent? : Option Statement
  /-- Whether it is what an `IF` does otherwise. -/
  isElse : Bool

namespace Statement

mutual

/-- A statement and then all that is inside it, each with where it hangs. -/
def placed (parent? : Option Statement) (isElse : Bool) : Statement → List Placed
  | s@(simple _) => [⟨s, parent?, isElse⟩]
  | s@(block _ cs) => ⟨s, parent?, isElse⟩ :: placedOfList (some s) cs
  | s@(conditional _ t e) =>
    ⟨s, parent?, isElse⟩ :: (placedOfBranch (some s) false t ++ placedOfBranch (some s) true e)
  | s@(loop _ b) => ⟨s, parent?, isElse⟩ :: placed (some s) false b

def placedOfList (parent? : Option Statement) : List Statement → List Placed
  | [] => []
  | s :: ss => placed parent? false s ++ placedOfList parent? ss

def placedOfBranch (parent? : Option Statement) (isElse : Bool) : Option Statement → List Placed
  | none => []
  | some s => placed parent? isElse s

end

theorem placedOfList_append (parent? : Option Statement) (ss us : List Statement) :
    placedOfList parent? (ss ++ us) = placedOfList parent? ss ++ placedOfList parent? us := by
  induction ss with
  | nil => simp [placedOfList]
  | cons s ss ih => simp [placedOfList, ih, List.append_assoc]

mutual

/-- The statements come in the order of the walk. -/
theorem map_statement_placed (parent? : Option Statement) (isElse : Bool) : ∀ s : Statement,
    (placed parent? isElse s).map (·.statement) = s.preorder
  | simple _ => by rw [placed, preorder]; rfl
  | block _ cs => by
      rw [placed, preorder, List.map_cons, map_statement_placedOfList _ cs]
  | conditional _ t e => by
      rw [placed, preorder, List.map_cons, List.map_append, map_statement_placedOfBranch _ _ t,
        map_statement_placedOfBranch _ _ e]
  | loop _ b => by rw [placed, preorder, List.map_cons, map_statement_placed _ _ b]

theorem map_statement_placedOfList (parent? : Option Statement) : ∀ ss : List Statement,
    (placedOfList parent? ss).map (·.statement) = preorderOfList ss
  | [] => by rw [placedOfList, preorderOfList]; rfl
  | s :: ss => by
      rw [placedOfList, preorderOfList, List.map_append, map_statement_placed _ _ s,
        map_statement_placedOfList _ ss]

theorem map_statement_placedOfBranch (parent? : Option Statement) (isElse : Bool) :
    ∀ b : Option Statement, (placedOfBranch parent? isElse b).map (·.statement) = preorderOfBranch b
  | none => by rw [placedOfBranch, preorderOfBranch]; rfl
  | some s => by rw [placedOfBranch, preorderOfBranch, map_statement_placed _ _ s]

end

end Statement

/-- The statements of a script where they hang. -/
def Script.placed (s : Script) : List Placed := Statement.placedOfList none s.topLevel

/-- **What is placed is what the walk meets**, in the same order. -/
theorem Script.map_statement_placed (s : Script) : s.placed.map (·.statement) = s.walk := by
  rw [Script.placed, Statement.map_statement_placedOfList, Script.walk, Statement.visit_eq]

end SqlCaret
