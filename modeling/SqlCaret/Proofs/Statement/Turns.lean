import SqlCaret.Proofs.Statement.Walk

/-!
# Statement — turns of a walk

A walk one statement at a time, as an iterator makes it.  The statements still to come are a row
with the next one at its end, so both the batches and the statements of each are put on it in
reverse, and so are the children of a statement that has been met.  A turn takes the last statement
of the row and puts its children in its place (`Statement.next?`).

From the row of a script the turns give the walk and then end, and nothing else
(`Script.yields_iff`).
-/

namespace SqlCaret

namespace Statement

variable {s : Statement} {stack stack' ss : List Statement}

/-- The next statement and what is to come after it; none when nothing is to come. -/
def next? (stack : List Statement) : Option (Statement × List Statement) :=
  stack.getLast?.map fun s => (s, stack.dropLast ++ s.children.reverse)

/-- The statements that turns give one after the other until they end. -/
inductive Yields : List Statement → List Statement → Prop where
  | ends {stack : List Statement} (h : next? stack = none) : Yields stack []
  | turn {stack stack' ss : List Statement} {s : Statement} (h : next? stack = some (s, stack'))
      (hs : Yields stack' ss) : Yields stack (s :: ss)

theorem next?_eq_none_iff : next? stack = none ↔ stack = [] := by
  rw [next?, Option.map_eq_none_iff, List.getLast?_eq_none_iff]

/-- Read from its end, the row is a stack: a turn takes the top and leaves the children there. -/
theorem next?_eq_some_iff :
    next? stack = some (s, stack') ↔
      ∃ rest, stack.reverse = s :: rest ∧ stack'.reverse = s.children ++ rest := by
  rw [next?, Option.map_eq_some_iff]
  constructor
  · rintro ⟨t, hlast, h⟩
    obtain ⟨rest, rfl⟩ := List.getLast?_eq_some_iff.mp hlast
    obtain ⟨rfl, rfl⟩ := Prod.mk.inj h
    exact ⟨rest.reverse, by simp, by simp⟩
  · rintro ⟨rest, hstack, hstack'⟩
    obtain rfl : stack = rest.reverse ++ [s] := by
      rw [List.reverse_eq_iff.mp hstack, List.reverse_cons]
    refine ⟨s, by simp, ?_⟩
    rw [List.dropLast_concat, ← List.reverse_append, ← hstack', List.reverse_reverse]

theorem Yields.eq_visit (h : Yields stack ss) : ss = visit stack.reverse := by
  induction h with
  | ends h => rw [next?_eq_none_iff.mp h, List.reverse_nil, visit]
  | turn h _ ih =>
      obtain ⟨rest, hstack, hstack'⟩ := next?_eq_some_iff.mp h
      rw [ih, hstack, hstack', visit]

/-- The turns end: a visit does. -/
theorem yields_visit (stack : List Statement) : Yields stack (visit stack.reverse) := by
  generalize hrow : stack.reverse = row
  induction row using visit.induct generalizing stack with
  | case1 =>
      rw [visit]
      exact .ends (next?_eq_none_iff.mpr (List.reverse_eq_nil_iff.mp hrow))
  | case2 s rest ih =>
      rw [visit]
      refine .turn (next?_eq_some_iff.mpr ⟨rest, hrow, List.reverse_reverse _⟩) ?_
      exact ih _ (List.reverse_reverse _)

/-- **Turns visit.** -/
theorem yields_iff : Yields stack ss ↔ ss = visit stack.reverse :=
  ⟨Yields.eq_visit, fun h => h ▸ yields_visit stack⟩

end Statement

namespace Script

/-- All outermost statements, the first of the first batch at the end. -/
def stack (s : Script) : List Statement := s.batches.reverse.flatMap List.reverse

theorem reverse_stack (s : Script) : s.stack.reverse = s.topLevel := by
  rw [stack, List.reverse_flatMap, List.reverse_reverse, topLevel, List.flatten_eq_flatMap]
  congr 1
  funext b
  exact List.reverse_reverse b

/-- **The turns from a script's row give its walk** and end behind it. -/
theorem yields_iff {s : Script} {ss : List Statement} :
    Statement.Yields s.stack ss ↔ ss = s.walk := by
  rw [Statement.yields_iff, reverse_stack, walk]

end Script

end SqlCaret
