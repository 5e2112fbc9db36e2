import SqlCaret.Statement.Walk

/-!
# Statement — the walk

A walk with a stack meets the statements in preorder (`visit_eq`).  What goes for a statement
whenever it goes for the statements right inside goes for all (`children_induction`), whatever sort
of statement holds them.
-/

namespace SqlCaret

namespace Statement

/-- Statements in a row are gone over one after the other. -/
theorem preorderOfList_eq_flatMap (ss : List Statement) :
    preorderOfList ss = ss.flatMap preorder := by
  induction ss with
  | nil => rw [preorderOfList, List.flatMap_nil]
  | cons s ss ih => rw [preorderOfList, ih, List.flatMap_cons]

/-- What is inside a statement is smaller, so the walk comes to an end. -/
theorem count_lt_of_mem_children {s c : Statement} (h : c ∈ s.children) : c.count < s.count := by
  obtain ⟨before, behind, hsplit⟩ := List.append_of_mem h
  simp only [count, preorder_eq s, hsplit, preorderOfList_append, preorderOfList,
    List.length_cons, List.length_append]
  omega

/-- What holds of a statement if it holds of its children holds of every statement. -/
theorem children_induction {P : Statement → Prop} (h : ∀ s, (∀ c ∈ s.children, P c) → P s)
    (s : Statement) : P s := by
  induction hn : s.count using Nat.strongRecOn generalizing s with
  | ind n ih =>
      subst hn
      exact h s fun c hc => ih c.count (count_lt_of_mem_children hc) c rfl

/-- A statement is among what it holds. -/
theorem mem_preorder_self (s : Statement) : s ∈ s.preorder := by
  rw [preorder_eq]
  exact List.mem_cons_self

theorem preorder_subset {s : Statement} {ss : List Statement} (h : s ∈ ss) :
    preorder s ⊆ preorderOfList ss := by
  rw [preorderOfList_eq_flatMap]
  exact fun _ hd => List.mem_flatMap.mpr ⟨s, h, hd⟩

/-- What a statement holds includes what that holds. -/
theorem mem_preorder_of_mem_children {s d c : Statement} (hc : c ∈ d.children) :
    d ∈ s.preorder → c ∈ s.preorder := by
  induction s using children_induction with
  | h s ih =>
      rw [preorder_eq, List.mem_cons, List.mem_cons]
      rintro (rfl | hd)
      · exact .inr (preorder_subset hc (mem_preorder_self c))
      · rw [preorderOfList_eq_flatMap] at hd
        obtain ⟨t, ht, hd⟩ := List.mem_flatMap.mp hd
        exact .inr (preorder_subset ht (ih t ht hd))

/-- **A walk meets the statements in preorder.** -/
theorem visit_eq (ss : List Statement) : visit ss = preorderOfList ss := by
  fun_induction visit ss with
  | case1 => simp [preorderOfList]
  | case2 s stack ih =>
      rw [ih, preorderOfList_append, preorderOfList, preorder_eq, List.cons_append]

end Statement

/-- **The walk of a script is the recursive pre-order** of its batches, one after the other. -/
theorem Script.walk_eq (s : Script) : s.walk = Statement.preorderOfList s.topLevel :=
  Statement.visit_eq s.topLevel

end SqlCaret
