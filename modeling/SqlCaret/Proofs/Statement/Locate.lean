import SqlCaret.Locate
import SqlCaret.Proofs.Statement.Fits

/-!
# Statement — locate

The answer of a locator is the span of a statement that a walk through the script meets, and it
contains the point that was asked for (`Script.locate_sound`).  There is an answer wherever an
outermost statement contains the point, in both scopes (`Script.isSome_locate`).
-/

namespace SqlCaret

namespace Statement

variable {p : Point} {sp : Span}

/-- The span is that of a statement in the row, and contains the point. -/
def Found (p : Point) (sp : Span) (ss : List Statement) : Prop :=
  (∃ s ∈ ss, s.span = sp) ∧ sp.contains p = true

/-- What is found among some statements is found among more. -/
theorem Found.mono {ss ts : List Statement} (h : Found p sp ss) (hss : ss ⊆ ts) :
    Found p sp ts := by
  obtain ⟨⟨s, hs, hspan⟩, hp⟩ := h
  exact ⟨⟨s, hss hs, hspan⟩, hp⟩

/-- A statement whose own span is taken is the one that is found. -/
theorem found_ownSpan? {s : Statement} (h : ownSpan? p s = some sp) :
    Found p sp (preorder s) := by
  rw [ownSpan?] at h
  split at h
  · rename_i hp
    cases h
    exact ⟨⟨s, by simp [preorder_eq], rfl⟩, hp⟩
  · cases h

mutual

/-- The innermost span is that of the statement or of one inside of it. -/
theorem found_innermost? : ∀ s : Statement, innermost? p s = some sp → Found p sp (preorder s)
  | simple sp₀, h => by
      rw [innermost?] at h
      exact found_ownSpan? h
  | block sp₀ cs, h => by
      rw [innermost?, Option.or_eq_some_iff] at h
      rcases h with h | ⟨-, h⟩
      · exact (found_innermostOfList? cs h).mono (by simp [preorder])
      · exact found_ownSpan? h
  | conditional sp₀ t e, h => by
      rw [innermost?, Option.or_eq_some_iff, Option.or_eq_some_iff] at h
      rcases h with (h | ⟨-, h⟩) | ⟨-, h⟩
      · exact (found_innermostOfBranch? t h).mono (by simp [preorder])
      · exact (found_innermostOfBranch? e h).mono (by simp [preorder])
      · exact found_ownSpan? h
  | loop sp₀ b, h => by
      rw [innermost?, Option.or_eq_some_iff] at h
      rcases h with h | ⟨-, h⟩
      · exact (found_innermost? b h).mono (by simp [preorder])
      · exact found_ownSpan? h

theorem found_innermostOfList? : ∀ ss : List Statement,
    innermostOfList? p ss = some sp → Found p sp (preorderOfList ss)
  | [], h => by
      rw [innermostOfList?] at h
      cases h
  | s :: ss, h => by
      rw [innermostOfList?, Option.or_eq_some_iff] at h
      rcases h with h | ⟨-, h⟩
      · exact (found_innermost? s h).mono (by simp [preorderOfList])
      · exact (found_innermostOfList? ss h).mono (by simp [preorderOfList])

theorem found_innermostOfBranch? : ∀ b : Option Statement,
    innermostOfBranch? p b = some sp → Found p sp (preorderOfBranch b)
  | none, h => by
      rw [innermostOfBranch?] at h
      cases h
  | some s, h => by
      rw [innermostOfBranch?] at h
      exact (found_innermost? s h).mono (by simp [preorderOfBranch])

end

/-- **What is located is the span of a statement that holds the caret**, in both scopes. -/
theorem found_locate {scope : Scope} {ss : List Statement} (h : locate scope p ss = some sp) :
    Found p sp (preorderOfList ss) := by
  cases scope with
  | block =>
      obtain ⟨s, hs, hown⟩ := List.exists_of_findSome?_eq_some h
      exact (found_ownSpan? hown).mono (preorder_subset hs)
  | inner => exact found_innermostOfList? ss h

/-! ### There is an answer -/

/-- A statement that holds the caret has its own span to answer. -/
theorem isSome_ownSpan? {s : Statement} (h : s.span.contains p = true) :
    (ownSpan? p s).isSome = true := by
  rw [ownSpan?, if_pos h]
  rfl

/-- The statement itself is the last resort of the inner scope. -/
theorem isSome_innermost? {s : Statement} (h : s.span.contains p = true) :
    (innermost? p s).isSome = true := by
  have hown := isSome_ownSpan? h
  cases s with
  | simple sp₀ => rwa [innermost?]
  | block sp₀ cs => rw [innermost?, Option.isSome_or, hown, Bool.or_true]
  | conditional sp₀ t e => rw [innermost?, Option.isSome_or, hown, Bool.or_true]
  | loop sp₀ b => rw [innermost?, Option.isSome_or, hown, Bool.or_true]

theorem isSome_innermostOfList? {s : Statement} {ss : List Statement} (hs : s ∈ ss)
    (h : s.span.contains p = true) : (innermostOfList? p ss).isSome = true := by
  induction ss with
  | nil => cases hs
  | cons t ss ih =>
      rw [innermostOfList?, Option.isSome_or, Bool.or_eq_true]
      rcases List.mem_cons.mp hs with rfl | hs
      · exact .inl (isSome_innermost? h)
      · exact .inr (ih hs)

/-- **Where a statement of the list holds the caret, something is located**, in both scopes. -/
theorem isSome_locate (scope : Scope) {s : Statement} {ss : List Statement} (hs : s ∈ ss)
    (h : s.span.contains p = true) : (locate scope p ss).isSome = true := by
  cases scope with
  | block => exact List.findSome?_isSome_iff.mpr ⟨s, hs, isSome_ownSpan? h⟩
  | inner => exact isSome_innermostOfList? hs h

end Statement

/-- **A locator finds a statement of the script that contains the point.** -/
theorem Script.locate_sound {scope : Scope} {p : Point} {s : Script} {sp : Span}
    (h : s.locate scope p = some sp) :
    ∃ st ∈ s.walk, st.span = sp ∧ sp.contains p = true := by
  obtain ⟨b, hb, hfound⟩ := List.exists_of_findSome?_eq_some h
  have hsub : Statement.preorderOfList b ⊆ s.walk := by
    rw [walk_eq, topLevel]
    obtain ⟨bs, bs', hbs⟩ := List.append_of_mem hb
    rw [hbs, List.flatten_append, List.flatten_cons, Statement.preorderOfList_append,
      Statement.preorderOfList_append]
    simp
  obtain ⟨⟨st, hst, hspan⟩, hp⟩ := (Statement.found_locate hfound).mono hsub
  exact ⟨st, hst, hspan, hp⟩

/-- **Where an outermost statement contains the point, a statement is found**, in either scope. -/
theorem Script.isSome_locate (scope : Scope) {p : Point} {s : Script} {st : Statement}
    (hst : st ∈ s.topLevel) (h : st.span.contains p = true) :
    (s.locate scope p).isSome = true := by
  obtain ⟨b, hb, hst⟩ := List.mem_flatten.mp hst
  exact List.findSome?_isSome_iff.mpr ⟨b, hb, Statement.isSome_locate scope hst h⟩

end SqlCaret
