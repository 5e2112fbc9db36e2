import Mathlib.Data.List.Chain
import SqlCaret.Proofs.Statement.Walk
import SqlCaret.Statement.Validate

/-!
# Statement — checks

What `validate` says of a script when it finds no fault, and nothing else: no outermost statement
clashes with the one right before it in its batch, and every statement of a walk is `Sound`
(`Script.validate_eq_ok_iff`).
-/

namespace SqlCaret

namespace Statement

/-- No statement of the row clashes with the one right before it. -/
def Apart (row : List Statement) : Prop := row.IsChain fun s t => clash s.span t.span = false

/-- What is checked of one statement: where its children stand. -/
structure Sound (s : Statement) : Prop where
  inside : ∀ c ∈ s.children, s.span.containsSpan c.span = true
  apart : Apart s.children

/-- Two checks one after the other pass if both do. -/
theorem checks_eq_ok_iff {first second : Except TreeFault Unit} :
    (do first; second) = .ok () ↔ first = .ok () ∧ second = .ok () := by
  cases first with
  | error e => exact ⟨(nomatch ·), (nomatch ·.1)⟩
  | ok u => exact ⟨fun h => ⟨rfl, h⟩, fun h => h.2⟩

theorem checkInside_eq_ok_iff {parent : Span} {ss : List Statement} :
    checkInside parent ss = .ok () ↔ ∀ s ∈ ss, parent.containsSpan s.span = true := by
  induction ss with
  | nil => simp [checkInside]
  | cons s ss ih =>
      rw [checkInside, List.forall_mem_cons, ← ih]
      split
      · rename_i h
        simp [h]
      · rename_i h
        simp [h]

theorem checkSiblings_eq_ok_iff {ss : List Statement} :
    checkSiblings ss = .ok () ↔ Apart ss := by
  rw [Apart]
  fun_induction checkSiblings ss with
  | case1 s t rest hclash => simp [hclash]
  | case2 s t rest hclash ih => simp [ih, hclash]
  | case3 ss hne =>
      match ss, hne with
      | [], _ => simp
      | [s], _ => simp
      | s :: t :: rest, hne => exact absurd rfl (hne s t rest)

theorem checkChildren_eq_ok_iff {s : Statement} :
    checkChildren s.span s.children = .ok () ↔ s.Sound := by
  rw [checkChildren, checks_eq_ok_iff, checkInside_eq_ok_iff, checkSiblings_eq_ok_iff]
  exact ⟨fun h => ⟨h.1, h.2⟩, fun h => ⟨h.inside, h.apart⟩⟩

theorem validateAll_eq_ok_iff {ss : List Statement} :
    validateAll ss = .ok () ↔ ∀ s ∈ ss, s.validate = .ok () := by
  induction ss with
  | nil => simp [validateAll]
  | cons s ss ih => rw [validateAll, checks_eq_ok_iff, List.forall_mem_cons, ih]

theorem validateBranch_eq_ok_iff {b : Option Statement} :
    validateBranch b = .ok () ↔ ∀ s ∈ b.toList, s.validate = .ok () := by
  cases b with
  | none => simp [validateBranch]
  | some s => simp [validateBranch]

/-- A statement passes if its children stand right and pass themselves. -/
theorem validate_eq_ok_iff {s : Statement} :
    s.validate = .ok () ↔ s.Sound ∧ ∀ c ∈ s.children, c.validate = .ok () := by
  rw [← checkChildren_eq_ok_iff]
  cases s with
  | simple sp => exact ⟨fun _ => ⟨rfl, by simp [children]⟩, fun _ => rfl⟩
  | block sp cs => rw [validate, checks_eq_ok_iff, validateAll_eq_ok_iff, span, children]
  | conditional sp t e =>
      rw [validate, checks_eq_ok_iff, checks_eq_ok_iff, validateBranch_eq_ok_iff,
        validateBranch_eq_ok_iff, span, children, List.forall_mem_append]
  | loop sp b => rw [validate, checks_eq_ok_iff, span, children, List.forall_mem_singleton]

/-- **A statement passes if it and all inside it are sound.** -/
theorem validate_eq_ok_iff_preorder (s : Statement) :
    s.validate = .ok () ↔ ∀ d ∈ s.preorder, d.Sound := by
  induction s using children_induction with
  | h s ih =>
      rw [validate_eq_ok_iff, preorder_eq, List.forall_mem_cons, preorderOfList_eq_flatMap]
      refine and_congr_right fun _ => ?_
      rw [List.forall_mem_flatMap]
      exact forall₂_congr ih

end Statement

namespace Script

theorem validateBatches_eq_ok_iff {bs : List Batch} :
    validateBatches bs = .ok () ↔
      (∀ b ∈ bs, Statement.Apart b) ∧ ∀ s ∈ bs.flatten, s.validate = .ok () := by
  induction bs with
  | nil => simp [validateBatches]
  | cons b bs ih =>
      rw [validateBatches, Statement.checks_eq_ok_iff, Statement.checks_eq_ok_iff,
        Statement.checkSiblings_eq_ok_iff, Statement.validateAll_eq_ok_iff, ih,
        List.forall_mem_cons, List.flatten_cons, List.forall_mem_append, ← and_assoc,
        and_and_and_comm]

/-- **A script is valid** if its batches are apart and every statement of a walk is sound. -/
theorem validate_eq_ok_iff {s : Script} :
    s.validate = .ok () ↔ (∀ b ∈ s.batches, Statement.Apart b) ∧ ∀ st ∈ s.walk, st.Sound := by
  rw [validate, validateBatches_eq_ok_iff, walk_eq, Statement.preorderOfList_eq_flatMap,
    List.forall_mem_flatMap]
  exact and_congr_right fun _ => forall₂_congr fun st _ => st.validate_eq_ok_iff_preorder

end Script

end SqlCaret
