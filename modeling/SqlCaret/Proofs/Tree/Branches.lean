import SqlCaret.Proofs.Tree.Woven

/-!
# Trees — branches

What an `IF`, an `ELSE` or a `WHILE` holds: one statement and one `ELSE` clause at most, and nothing
behind the clause (`Kind.branches_of_holds`).  Only an `IF` has such a clause.
-/

namespace SqlCaret

/-- The kinds of the nodes that take one statement. -/
def Kind.takesOne : Kind → Bool
  | .ifStatement | .elseClause | .whileStatement => true
  | _ => false

/-! ### The `ELSE` clause -/

/-- Nothing comes after an `ELSE` clause. -/
def Kind.ElseLast (ks : List Kind) : Prop :=
  ∀ before behind, ks = before ++ .elseClause :: behind → behind = []

theorem Kind.elseLast_tail {k : Kind} {ks : List Kind} (h : ElseLast (k :: ks)) : ElseLast ks :=
  fun before behind hks => h (k :: before) behind (by rw [hks]; rfl)

theorem Kind.elseLast_of_skip {p : Kind → Bool} (hp : p .elseClause = false) {ks : List Kind}
    (h : ElseLast (skip p ks)) : ElseLast ks := by
  intro before behind hks
  cases before with
  | nil =>
      refine h [] behind ?_
      rw [hks, List.nil_append, skip, hp]
      rfl
  | cons k before =>
      rw [List.cons_append] at hks
      subst hks
      rw [skip] at h
      split at h
      · exact h before behind rfl
      · exact h (k :: before) behind rfl

/-- What an `IF` holds ends with its `ELSE` clause, if it has one. -/
theorem Kind.elseLast_of_holds {ks : List Kind} (h : holds .ifStatement ks = true) :
    ElseLast ks := by
  refine elseLast_of_skip (p := (· == .condition)) rfl (elseLast_of_skip (p := isItem) rfl ?_)
  rw [holds, List.isEmpty_iff] at h
  generalize skip isItem (skip (· == .condition) ks) = rest at h
  intro before behind hrest
  cases rest with
  | nil => exact absurd (congrArg List.length hrest) (by simp)
  | cons k rest =>
      rw [skip] at h
      split at h
      · subst h
        cases before with
        | nil => exact (List.cons.inj hrest).2.symm
        | cons => simp at hrest
      · cases h

/-! ### One statement -/

namespace Kind

theorem countP_le_skip (p q : Kind → Bool) (ks : List Kind) :
    ks.countP q ≤ (skip p ks).countP q + 1 := by
  cases ks with
  | nil => exact Nat.zero_le _
  | cons k ks =>
      rw [skip]
      split
      · rw [List.countP_cons]
        split <;> omega
      · exact Nat.le_succ _

theorem countP_skip {p q : Kind → Bool} (h : ∀ k, p k = true → q k = false) (ks : List Kind) :
    (skip p ks).countP q = ks.countP q := by
  cases ks with
  | nil => rfl
  | cons k ks =>
      rw [skip]
      split
      · rw [List.countP_cons_of_neg (by rw [h k ‹_›]; exact Bool.false_ne_true)]
      · rfl

/-- An `IF`, an `ELSE` or a `WHILE` holds one statement at most, its `ELSE` clause apart. -/
theorem one_of_holds {k : Kind} {ks : List Kind} (hk : k.takesOne = true)
    (h : k.holds ks = true) : ks.countP isStatement ≤ 1 := by
  have hcondition : ∀ ks, (skip (· == .condition) ks).countP isStatement = ks.countP isStatement :=
    countP_skip fun k hk => by rw [eq_of_beq hk]; rfl
  have helse : ∀ ks, (skip (· == .elseClause) ks).countP isStatement = ks.countP isStatement :=
    countP_skip fun k hk => by rw [eq_of_beq hk]; rfl
  have hnil : ∀ {ks : List Kind}, ks.isEmpty = true → ks.countP isStatement = 0 := fun h => by
    rw [List.isEmpty_iff.mp h]; rfl
  cases k with
  | ifStatement =>
      calc ks.countP isStatement
          = (skip (· == .condition) ks).countP isStatement := (hcondition ks).symm
        _ ≤ (skip isItem (skip (· == .condition) ks)).countP isStatement + 1 :=
            countP_le_skip ..
        _ = 1 := by rw [← helse, hnil h]
  | whileStatement =>
      have hle := countP_le_skip isItem isStatement (skip (· == .condition) ks)
      rwa [hnil h, hcondition] at hle
  | elseClause =>
      have hle := countP_le_skip isItem isStatement ks
      rwa [hnil h] at hle
  | _ => cases hk

/-- The kinds of what an `IF`, an `ELSE` or a `WHILE` holds: one statement and one `ELSE` clause at
most, the clause behind everything else. -/
structure Branches (ks : List Kind) : Prop where
  parts : ∀ k ∈ ks, k.isItem = true ∨ k = .condition ∨ k = .elseClause
  one : ks.countP isStatement ≤ 1
  elseLast : ElseLast ks

theorem Branches.tail {k : Kind} {ks : List Kind} (h : Branches (k :: ks)) : Branches ks where
  parts := fun l hl => h.parts l (List.mem_cons_of_mem _ hl)
  one := Nat.le_trans (by rw [List.countP_cons]; exact Nat.le_add_right _ _) h.one
  elseLast := elseLast_tail h.elseLast

theorem Branches.alone {k : Kind} {ks : List Kind} (h : Branches (k :: ks))
    (hk : k.isStatement = true) : ∀ l ∈ ks, l.isStatement = false := by
  have hone := h.one
  rw [List.countP_cons_of_pos hk] at hone
  have hzero : ks.countP isStatement = 0 := by omega
  exact fun l hl => Bool.eq_false_iff.mpr (List.countP_eq_zero.mp hzero l hl)

/-- Only an `IF` holds an `ELSE` clause. -/
theorem elseClause_notMem_of_holds {k : Kind} {ks : List Kind}
    (hk : k = .elseClause ∨ k = .whileStatement) (h : k.holds ks = true) : .elseClause ∉ ks := by
  have hitem : ∀ k, isItem k = true → (k != .elseClause) = true := by
    intro k hk
    cases k <;> first | rfl | cases hk
  have hcondition : ∀ k : Kind, (k == .condition) = true → (k != .elseClause) = true := by
    intro k hk
    rw [eq_of_beq hk]
    rfl
  have hnil : ∀ {ks : List Kind}, ks.isEmpty = true → ks.all (· != .elseClause) = true := by
    intro ks h
    rw [List.isEmpty_iff.mp h]
    rfl
  have hall : ks.all (· != .elseClause) = true := by
    rcases hk with rfl | rfl
    · exact all_of_skip hitem (hnil h)
    · exact all_of_skip hcondition (all_of_skip hitem (hnil h))
  exact fun hmem => absurd (List.all_eq_true.mp hall _ hmem) (by decide)

theorem branches_of_holds {k : Kind} {ks : List Kind} (hk : k.takesOne = true)
    (h : k.holds ks = true) : Branches ks where
  parts := by
    have hall := all_of_holds (p := fun k => k.isItem || (k == .condition || k == .elseClause))
      (fun k hk => by rw [hk, Bool.true_or]) rfl rfl (by rintro rfl; cases hk) h
    intro l hl
    simpa only [Bool.or_eq_true, beq_iff_eq] using List.all_eq_true.mp hall l hl
  one := one_of_holds hk h
  elseLast := by
    have hother : .elseClause ∉ ks → ElseLast ks := fun hmem before behind hks =>
      absurd (by simp [hks]) hmem
    cases k with
    | ifStatement => exact elseLast_of_holds h
    | elseClause => exact hother (elseClause_notMem_of_holds (.inl rfl) h)
    | whileStatement => exact hother (elseClause_notMem_of_holds (.inr rfl) h)
    | _ => cases hk

theorem of_mem_alternate {ks : List Kind} (h : alternate ks = true) :
    ∀ k ∈ ks, k = .batch ∨ k = .separator := by
  fun_induction alternate ks with
  | case1 k => exact fun l hl => .inl ((List.mem_singleton.mp hl).trans (eq_of_beq h))
  | case2 k l ks ih =>
      simp only [Bool.and_eq_true, beq_iff_eq] at h
      obtain ⟨⟨rfl, rfl⟩, h⟩ := h
      simpa using ih h
  | case3 => cases h

/-- An item that is no statement is an `ERROR`. -/
theorem eq_error_of_isItem {k : Kind} (h : k.isItem = true) (hk : ¬ k.isStatement = true) :
    k = .error := by
  rw [isItem, Bool.eq_false_iff.mpr hk, Bool.false_or] at h
  exact eq_of_beq h

end Kind

end SqlCaret
