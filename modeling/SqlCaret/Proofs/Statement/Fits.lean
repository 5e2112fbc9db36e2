import SqlCaret.Proofs.Statement.Checks
import SqlCaret.Proofs.Text.Points

/-!
# Statement — fits

`Fits P lo hi ss` says that the statements `ss` stand one after the other between the points
`lo` and `hi`, that those inside each of them stand between its ends in the same way, and that
`P` holds of every one, however deep.

A walk meets only statements that `P` holds of and whose children fit (`Fits.of_mem_visit`), and
batches that fit one after the other pass every check of `validate` (`Fits.validateBatches_eq`).
-/

namespace SqlCaret.Statement

/-- Statements one after the other between two points, and so on inside each. -/
inductive Fits (P : Statement → Prop) : Point → Point → List Statement → Prop where
  | nil {lo hi : Point} (h : lo ≤ hi) : Fits P lo hi []
  | cons {lo hi : Point} {s : Statement} {ss : List Statement} (hs : P s)
      (h : lo ≤ s.span.start) (inner : Fits P s.span.start s.span.stop s.children)
      (rest : Fits P s.span.stop hi ss) : Fits P lo hi (s :: ss)

namespace Fits

variable {P Q : Statement → Prop} {lo lo' mid hi hi' : Point} {ss ts : List Statement}

/-- Where statements fit, the points around them are in order. -/
theorem le (h : Fits P lo hi ss) : lo ≤ hi := by
  induction h with
  | nil h => exact h
  | cons _ h _ _ ih₁ ih₂ => exact Point.le_trans h (Point.le_trans ih₁ ih₂)

/-- What fits between two points fits between any around them. -/
theorem widen (h : Fits P lo hi ss) (hlo : lo' ≤ lo) (hhi : hi ≤ hi') : Fits P lo' hi' ss := by
  induction h generalizing lo' with
  | nil h => exact .nil (Point.le_trans hlo (Point.le_trans h hhi))
  | cons hs h inner _ _ ih =>
      exact .cons hs (Point.le_trans hlo h) inner (ih (Point.le_refl _) hhi)

/-- What fits up to a point and what fits from there on fit together. -/
theorem append (h : Fits P lo mid ss) (h' : Fits P mid hi ts) : Fits P lo hi (ss ++ ts) := by
  induction h with
  | nil hle => exact h'.widen hle (Point.le_refl _)
  | cons hs h inner _ _ ih => exact .cons hs h inner (ih h')

theorem of_append_left (h : Fits P lo hi (ss ++ ts)) : Fits P lo hi ss := by
  induction ss generalizing lo with
  | nil => exact .nil h.le
  | cons s ss ih =>
      cases h with
      | cons hs hlo inner rest => exact .cons hs hlo inner (ih rest)

theorem of_append_right (h : Fits P lo hi (ss ++ ts)) : Fits P lo hi ts := by
  induction ss generalizing lo with
  | nil => exact h
  | cons s ss ih =>
      cases h with
      | cons _ hlo inner rest =>
          exact (ih rest).widen (Point.le_trans hlo inner.le) (Point.le_refl _)

theorem imp (h : Fits P lo hi ss) (hPQ : ∀ s, P s → Q s) : Fits Q lo hi ss := by
  induction h with
  | nil h => exact .nil h
  | cons hs h _ _ ih₁ ih₂ => exact .cons (hPQ _ hs) h ih₁ ih₂

/-- Every statement of the row lies between the two points. -/
theorem bounds (h : Fits P lo hi ss) {s : Statement} (hs : s ∈ ss) :
    lo ≤ s.span.start ∧ s.span.stop ≤ hi := by
  induction h with
  | nil => cases hs
  | cons _ hlo inner rest _ ih =>
      rcases List.mem_cons.mp hs with rfl | hs
      · exact ⟨hlo, rest.le⟩
      · obtain ⟨hstart, hstop⟩ := ih hs
        exact ⟨Point.le_trans hlo (Point.le_trans inner.le hstart), hstop⟩

/-- Of two statements of the row the first ends before the second starts. -/
theorem pairwise (h : Fits P lo hi ss) :
    ss.Pairwise fun a b => a.span.stop ≤ b.span.start := by
  induction h with
  | nil => exact .nil
  | cons _ _ _ rest _ ih => exact .cons (fun s hs => (rest.bounds hs).1) ih

theorem containsSpan {s : Statement} (h : Fits P s.span.start s.span.stop s.children) :
    ∀ c ∈ s.children, s.span.containsSpan c.span = true := by
  intro c hc
  obtain ⟨hstart, hstop⟩ := h.bounds hc
  simp [Span.containsSpan, hstart, hstop]

/-! ### The walk -/

/-- Inside of each statement, however deep, the statements fit again. -/
theorem of_mem_preorder (h : Fits P lo hi ss) {s : Statement} (hs : s ∈ preorderOfList ss) :
    P s ∧ Fits P s.span.start s.span.stop s.children := by
  induction h with
  | nil => simp [preorderOfList] at hs
  | cons hP _ inner _ ih₁ ih₂ =>
      rw [preorderOfList, preorder_eq, List.cons_append, List.mem_cons, List.mem_append] at hs
      rcases hs with rfl | hs | hs
      · exact ⟨hP, inner⟩
      · exact ih₁ hs
      · exact ih₂ hs

/-- What holds of every statement of a row that fits, when walked through. -/
theorem of_mem_visit (h : Fits P lo hi ss) {s : Statement} (hs : s ∈ visit ss) :
    P s ∧ Fits P s.span.start s.span.stop s.children := by
  rw [visit_eq] at hs
  exact h.of_mem_preorder hs

/-! ### The checks -/

/-- The second of two neighbours starts where the first has ended, and so after it has started. -/
theorem apart (h : Fits P lo hi ss) : Apart ss := by
  induction h with
  | nil => exact .nil
  | @cons lo hi s ss _ _ inner rest _ ih =>
      cases ss with
      | nil => exact .singleton _
      | cons t ss =>
          have hle : s.span.stop ≤ t.span.start := (rest.bounds List.mem_cons_self).1
          have hoverlap : s.span.overlaps t.span = false := by
            simp [Span.overlaps, Point.not_lt.mpr hle]
          have horder : ¬ t.span.start < s.span.start :=
            Point.not_lt.mpr (Point.le_trans inner.le hle)
          refine List.isChain_cons_cons.mpr ⟨?_, ih⟩
          rw [clash, hoverlap, decide_eq_false horder, Bool.or_false]

theorem sound {s : Statement} (h : Fits P s.span.start s.span.stop s.children) : s.Sound :=
  ⟨h.containsSpan, h.apart⟩

/-- **Batches of statements that fit one after the other are valid.** -/
theorem validateBatches_eq {bs : List Batch} (h : Fits P lo hi bs.flatten) :
    Script.validateBatches bs = .ok () := by
  refine Script.validateBatches_eq_ok_iff.mpr ⟨fun b hb => ?_, fun s hs => ?_⟩
  · obtain ⟨front, behind, rfl⟩ := List.append_of_mem hb
    rw [List.flatten_append, List.flatten_cons] at h
    exact h.of_append_right.of_append_left.apart
  · refine s.validate_eq_ok_iff_preorder.mpr fun d hd => (h.of_mem_preorder ?_).2.sound
    rw [preorderOfList_eq_flatMap]
    exact List.mem_flatMap.mpr ⟨s, hs, hd⟩

end Fits

end SqlCaret.Statement
