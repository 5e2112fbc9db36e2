import SqlCaret.Proofs.Statement.Checks
import SqlCaret.Proofs.Statement.Postorder

/-!
# Statement — both scopes

In a valid script the two scopes find their answers in the same outermost statement
(`Script.scopes_agree`).  What is inside a statement lies within it, however deep
(`Statement.containsSpan_of_mem_preorder`), so an outermost statement that does not contain a point
has nothing inside that does (`Statement.locate_eq_none`), and both scopes pass it over.

Nothing else of validity is used: siblings may overlap, batches are not compared, and a span may run
backwards.
-/

namespace SqlCaret

namespace Span

variable {a b c : Span} {p : Point}

theorem containsSpan_iff : a.containsSpan b = true ↔ a.start ≤ b.start ∧ b.stop ≤ a.stop := by
  rw [containsSpan, Bool.and_eq_true, decide_eq_true_eq, decide_eq_true_eq]

theorem containsSpan_refl (a : Span) : a.containsSpan a = true :=
  containsSpan_iff.mpr ⟨Point.le_refl _, Point.le_refl _⟩

theorem containsSpan_trans (h₁ : a.containsSpan b = true) (h₂ : b.containsSpan c = true) :
    a.containsSpan c = true := by
  rw [containsSpan_iff] at *
  exact ⟨Point.le_trans h₁.1 h₂.1, Point.le_trans h₂.2 h₁.2⟩

theorem contains_of_containsSpan (h : a.containsSpan b = true) (hp : b.contains p = true) :
    a.contains p = true := by
  rw [containsSpan_iff] at h
  rw [contains_iff] at *
  exact ⟨Point.le_trans h.1 hp.1, Point.le_trans hp.2 h.2⟩

end Span

namespace Statement

variable {p : Point} {s t : Statement} {ss : List Statement}

/-- **What is inside a valid statement lies within it**, however deep. -/
theorem containsSpan_of_mem_preorder (h : s.validate = .ok ()) :
    ∀ d ∈ s.preorder, s.span.containsSpan d.span = true := by
  induction s using children_induction with
  | h s ih =>
      obtain ⟨hsound, hchildren⟩ := validate_eq_ok_iff.mp h
      rw [preorder_eq, List.forall_mem_cons, preorderOfList_eq_flatMap, List.forall_mem_flatMap]
      refine ⟨Span.containsSpan_refl _, fun c hc d hd => ?_⟩
      exact Span.containsSpan_trans (hsound.inside c hc) (ih c hc (hchildren c hc) d hd)

/-- Where no statement of the row contains the point, nothing inside them does. -/
theorem locate_eq_none (hvalid : ∀ s ∈ ss, s.validate = .ok ())
    (h : ∀ s ∈ ss, s.span.contains p = false) (scope : Scope) : locate scope p ss = none := by
  cases scope with
  | block => exact locate_block_eq_none_iff.mpr h
  | inner =>
      rw [locate_inner_eq_none_iff, preorderOfList_eq_flatMap, List.forall_mem_flatMap]
      intro s hs d hd
      refine Bool.eq_false_iff.mpr fun hp => Bool.eq_false_iff.mp (h s hs) ?_
      exact Span.contains_of_containsSpan (containsSpan_of_mem_preorder (hvalid s hs) d hd) hp

/-- The answer for a statement that contains the point comes from this statement. -/
theorem locate_append_cons {before : List Statement} (hvalid : ∀ s ∈ before, s.validate = .ok ())
    (hbefore : ∀ s ∈ before, s.span.contains p = false) (ht : t.span.contains p = true)
    (behind : List Statement) (scope : Scope) :
    locate scope p (before ++ t :: behind) = locate scope p [t] := by
  rw [locate_append, locate_eq_none hvalid hbefore, Option.none_or, ← List.singleton_append,
    locate_append]
  exact Option.or_of_isSome (isSome_locate scope (List.mem_singleton_self t) ht)

theorem isSome_locate_iff (hvalid : ∀ s ∈ ss, s.validate = .ok ()) (scope : Scope) :
    (locate scope p ss).isSome ↔ ∃ s ∈ ss, s.span.contains p = true := by
  constructor
  · intro h
    by_contra hnone
    have hfalse : ∀ s ∈ ss, s.span.contains p = false := by simpa using hnone
    rw [locate_eq_none hvalid hfalse] at h
    cases h
  · rintro ⟨s, hs, hp⟩
    exact isSome_locate scope hs hp

/-- The first statement of the row that contains the point is where both scopes find theirs. -/
theorem locate_of_find? (hvalid : ∀ s ∈ ss, s.validate = .ok ())
    (h : ss.find? (·.span.contains p) = some t) :
    ∃ before behind, ss = before ++ t :: behind ∧
      ∀ scope, locate scope p before = none ∧ locate scope p ss = locate scope p [t] := by
  obtain ⟨ht, before, behind, rfl, hbefore⟩ := List.find?_eq_some_iff_append.mp h
  have hbefore : ∀ s ∈ before, s.span.contains p = false := by simpa using hbefore
  have hvalid : ∀ s ∈ before, s.validate = .ok () := fun s hs =>
    hvalid s (List.mem_append_left _ hs)
  exact ⟨before, behind, rfl, fun scope => ⟨locate_eq_none hvalid hbefore scope,
    locate_append_cons hvalid hbefore ht behind scope⟩⟩

end Statement

namespace Script

variable {s : Script}

theorem validate_of_mem_topLevel (h : s.validate = .ok ()) :
    ∀ st ∈ s.topLevel, st.validate = .ok () := by
  rw [validate, validateBatches_eq_ok_iff] at h
  exact h.2

/-- **The two scopes agree.**  In a valid script the one finds a statement just where the other
does.  Both find theirs in the same outermost statement: it is the answer of the block scope, it or
a statement inside it is that of the inner scope, and those before it give no answer in either
scope.  So the span of the one answer contains that of the other. -/
theorem scopes_agree (s : Script) (hvalid : s.validate = .ok ()) (p : Point) :
    ((s.locate .block p).isSome ↔ (s.locate .inner p).isSome) ∧
      ∀ outer inner, s.locate .block p = some outer → s.locate .inner p = some inner →
        outer.containsSpan inner = true ∧
          ∃ before t behind, s.topLevel = before ++ t :: behind ∧ t.span = outer ∧
            (∃ d ∈ t.preorder, d.span = inner) ∧
            ∀ scope, Statement.locate scope p before = none ∧
              s.locate scope p = Statement.locate scope p [t] := by
  have hvalid := validate_of_mem_topLevel hvalid
  simp only [locate_eq]
  refine ⟨?_, fun outer inner houter hinner => ?_⟩
  · rw [Statement.isSome_locate_iff hvalid, Statement.isSome_locate_iff hvalid]
  · rw [Statement.locate_block, Option.map_eq_some_iff] at houter
    obtain ⟨t, hfind, hspan⟩ := houter
    obtain ⟨before, behind, hsplit, hscope⟩ := Statement.locate_of_find? hvalid hfind
    rw [(hscope .inner).2] at hinner
    obtain ⟨⟨d, hd, hspan'⟩, -⟩ := Statement.found_locate hinner
    rw [Statement.preorderOfList_eq_flatMap, List.flatMap_singleton] at hd
    have hmem : t ∈ s.topLevel := List.mem_of_find?_eq_some hfind
    refine ⟨?_, before, t, behind, hsplit, hspan, ⟨d, hd, hspan'⟩, hscope⟩
    rw [← hspan, ← hspan']
    exact Statement.containsSpan_of_mem_preorder (hvalid t hmem) d hd

/-- A caret in a statement between `BEGIN` and `END`, in the second batch. -/
theorem scopes_agree_block :
    let script : Script := ⟨[[.simple ⟨⟨1, 0⟩, ⟨1, 7⟩⟩],
      [.block ⟨⟨3, 0⟩, ⟨5, 3⟩⟩ [.simple ⟨⟨4, 2⟩, ⟨4, 9⟩⟩]]]⟩
    script.validate = .ok () ∧ script.locate .block ⟨4, 5⟩ = some ⟨⟨3, 0⟩, ⟨5, 3⟩⟩ ∧
      script.locate .inner ⟨4, 5⟩ = some ⟨⟨4, 2⟩, ⟨4, 9⟩⟩ ∧
      Span.containsSpan ⟨⟨3, 0⟩, ⟨5, 3⟩⟩ ⟨⟨4, 2⟩, ⟨4, 9⟩⟩ = true := by
  intro script
  have hblock : script.locate .block ⟨4, 5⟩ = some ⟨⟨3, 0⟩, ⟨5, 3⟩⟩ := by decide
  have hinner : script.locate .inner ⟨4, 5⟩ = some ⟨⟨4, 2⟩, ⟨4, 9⟩⟩ := by decide
  exact ⟨rfl, hblock, hinner, ((scopes_agree script rfl ⟨4, 5⟩).2 _ _ hblock hinner).1⟩

end Script

end SqlCaret
