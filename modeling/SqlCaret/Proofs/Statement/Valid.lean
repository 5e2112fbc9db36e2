import SqlCaret.Proofs.Statement.Checks
import SqlCaret.Proofs.Text.Points

/-!
# Statement — valid

How the spans of a valid script lie.  Those inside a statement lie within it.  Of siblings only
neighbours are compared, so that those further apart do not overlap either rests on their order: two
neighbours that do not clash stand one behind the other (`Span.stop_le_or_emptyAtStartOf`), and so
do all in a row.

There is one exception.  An empty span at the start of the one before it overlaps nothing and does
not start before it, and behind it the order starts anew (`Span.EmptyAtStartOf`).  So siblings of a
valid script overlap only where such a one stands between them (`Script.valid_spans`), and there
they can (`Script.not_valid_siblings_apart`).
-/

namespace SqlCaret

namespace Span

/-- An empty span right at the start of one that is not empty. -/
structure EmptyAtStartOf (s before : Span) : Prop where
  start : s.start = before.start
  isEmpty : s.isEmpty = true
  nonempty : before.isEmpty = false

theorem not_overlaps_iff {a b : Span} :
    a.overlaps b = false ↔ b.stop ≤ a.start ∨ a.stop ≤ b.start := by
  rw [overlaps, Bool.and_eq_false_iff, decide_eq_false_iff_not, decide_eq_false_iff_not,
    Point.not_lt, Point.not_lt]

theorem not_clash_iff {a b : Span} :
    Statement.clash a b = false ↔ a.overlaps b = false ∧ a.start ≤ b.start := by
  rw [Statement.clash, Bool.or_eq_false_iff, decide_eq_false_iff_not, Point.not_lt]

/-- Neighbours that do not clash stand one behind the other, but for the exception. -/
theorem stop_le_or_emptyAtStartOf {a b : Span} (hb : b.start ≤ b.stop)
    (h : Statement.clash a b = false) : a.stop ≤ b.start ∨ b.EmptyAtStartOf a := by
  obtain ⟨hover, hstart⟩ := not_clash_iff.mp h
  rcases not_overlaps_iff.mp hover with hfront | hbehind
  · -- `b` ends where `a` starts at the latest, and does not start before
    have hempty : b.start = b.stop := Point.le_antisymm hb (Point.le_trans hfront hstart)
    have hsame : b.start = a.start := Point.le_antisymm (hempty ▸ hfront) hstart
    by_cases ha : a.stop ≤ b.start
    · exact .inl ha
    · refine .inr ⟨hsame, beq_iff_eq.mpr hempty, beq_eq_false_iff_ne.mpr fun he => ha ?_⟩
      rw [hsame, ← he]
      exact Point.le_refl _
  · exact .inl hbehind

end Span

namespace Statement

variable {row : List Statement}

/-- Siblings start one after the other. -/
theorem Apart.start_le (h : Apart row) {i j : Nat} (hij : i ≤ j) (hj : j < row.length) :
    row[i].span.start ≤ row[j].span.start := by
  induction j, hij using Nat.le_induction with
  | base => exact Point.le_refl _
  | succ j hij ih =>
      have hnext := List.isChain_iff_getElem.mp h j hj
      exact Point.le_trans (ih (by omega)) (Span.not_clash_iff.mp hnext).2

/-- **Siblings overlap only across the exception**: right behind the first of them stands an empty
one, at its start. -/
theorem Apart.emptyAtStartOf_of_overlaps (h : Apart row)
    (ho : ∀ s ∈ row, s.span.start ≤ s.span.stop) {i j : Nat} (hij : i < j) (hj : j < row.length)
    (hover : row[i].span.overlaps row[j].span = true) :
    i + 1 < j ∧ row[i + 1].span.EmptyAtStartOf row[i].span := by
  have hnext := List.isChain_iff_getElem.mp h i (by omega)
  rcases Span.stop_le_or_emptyAtStartOf (ho _ (List.getElem_mem _)) hnext with hle | hempty
  · have hapart := Span.not_overlaps_iff.mpr (.inr (Point.le_trans hle (h.start_le hij hj)))
    rw [hapart] at hover
    cases hover
  · have hne : i + 1 ≠ j := by
      rintro rfl
      rw [(Span.not_clash_iff.mp hnext).1] at hover
      cases hover
    exact ⟨by omega, hempty⟩

end Statement

namespace Script

/-- The rows of siblings: the outermost statements of each batch, and those right inside each
statement. -/
def siblings (s : Script) : List (List Statement) := s.batches ++ s.walk.map Statement.children

variable {s : Script} {row : List Statement}

theorem mem_siblings :
    row ∈ s.siblings ↔ row ∈ s.batches ∨ ∃ st ∈ s.walk, st.children = row := by
  rw [siblings, List.mem_append, List.mem_map]

theorem apart_of_mem_siblings (h : s.validate = .ok ()) (hrow : row ∈ s.siblings) :
    Statement.Apart row := by
  obtain ⟨hbatches, hsound⟩ := validate_eq_ok_iff.mp h
  rcases mem_siblings.mp hrow with hrow | ⟨st, hst, rfl⟩
  · exact hbatches row hrow
  · exact (hsound st hst).apart

/-- A walk meets all siblings. -/
theorem mem_walk_of_mem_siblings (hrow : row ∈ s.siblings) {st : Statement} (hst : st ∈ row) :
    st ∈ s.walk := by
  rw [walk_eq]
  rcases mem_siblings.mp hrow with hrow | ⟨parent, hparent, rfl⟩
  · exact Statement.preorder_subset (List.mem_flatten.mpr ⟨row, hrow, hst⟩)
      (Statement.mem_preorder_self st)
  · rw [walk_eq, Statement.preorderOfList_eq_flatMap] at hparent
    obtain ⟨t, ht, hparent⟩ := List.mem_flatMap.mp hparent
    exact Statement.preorder_subset ht (Statement.mem_preorder_of_mem_children hst hparent)

/-- **How the spans of a valid script lie.**  Every child lies within its parent.  When all spans
are in order and two siblings overlap, then right behind the first of them stands an empty sibling
at the start of its not empty span; so the two are no neighbours. -/
theorem valid_spans (s : Script) (hvalid : s.validate = .ok ()) :
    (∀ st ∈ s.walk, ∀ c ∈ st.children, st.span.containsSpan c.span = true) ∧
      ((∀ st ∈ s.walk, st.span.start ≤ st.span.stop) → ∀ row ∈ s.siblings, ∀ (i j : Nat)
        (_ : i < j) (hj : j < row.length), row[i].span.overlaps row[j].span = true →
          i + 1 < j ∧ row[i + 1].span.EmptyAtStartOf row[i].span) := by
  refine ⟨fun st hst => ((validate_eq_ok_iff.mp hvalid).2 st hst).inside, ?_⟩
  intro horder row hrow i j hij hj hover
  exact (apart_of_mem_siblings hvalid hrow).emptyAtStartOf_of_overlaps
    (fun st hst => horder st (mem_walk_of_mem_siblings hrow hst)) hij hj hover

/-- Three statements, an empty one between two that overlap. -/
def restarted : Script :=
  ⟨[[.simple ⟨⟨1, 0⟩, ⟨1, 10⟩⟩, .simple ⟨⟨1, 0⟩, ⟨1, 0⟩⟩, .simple ⟨⟨1, 5⟩, ⟨1, 8⟩⟩]]⟩

theorem restarted_siblings : restarted.topLevel ∈ restarted.siblings := by
  simp [siblings, restarted, topLevel]

theorem restarted_ordered : ∀ st ∈ restarted.walk, st.span.start ≤ st.span.stop := by
  have hwalk : restarted.walk = restarted.topLevel := by
    rw [walk_eq]
    simp [restarted, topLevel, Statement.preorderOfList, Statement.preorder]
  rw [hwalk]
  decide

/-- The first and the third overlap, and so the second is empty. -/
theorem valid_spans_restarted :
    restarted.validate = .ok () ∧
      Span.EmptyAtStartOf ⟨⟨1, 0⟩, ⟨1, 0⟩⟩ ⟨⟨1, 0⟩, ⟨1, 10⟩⟩ := by
  have hspans := (valid_spans restarted rfl).2 restarted_ordered _ restarted_siblings
  exact ⟨rfl, (hspans 0 2 (by decide) (by decide) (by decide)).2⟩

/-- Passing the checks does not keep siblings from overlapping. -/
theorem not_valid_siblings_apart :
    ¬ ∀ s : Script, (∀ st ∈ s.walk, st.span.start ≤ st.span.stop) → s.validate = .ok () →
      (∀ st ∈ s.walk, ∀ c ∈ st.children, st.span.containsSpan c.span = true) ∧
        ∀ row ∈ s.siblings, row.Pairwise fun a b => a.span.overlaps b.span = false := by
  intro h
  exact absurd ((h restarted restarted_ordered rfl).2 _ restarted_siblings) (by decide)

end Script

end SqlCaret
