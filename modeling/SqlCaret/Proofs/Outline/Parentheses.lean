import SqlCaret.Proofs.Outline.Form
import SqlCaret.Proofs.Tree.Whole

/-!
# Outline — parentheses

The account that a statement or a condition keeps of its parentheses.  `n.Accounts ks` says that
`n` is the account of the parentheses among the kinds `ks`; every mark that is taken keeps it
(`Nesting.Accounts.pass`), and at the end there is nothing to report just when the parentheses are
balanced (`Nesting.Accounts.finish_eq_nil_iff`).

So a simple statement has no problems just when it is whole (`whole_simple`), and likewise a
condition (`whole_condition`).
-/

namespace SqlCaret

open SqlCaret.Tree

namespace Kind

/-- No parenthesis is closed that is not open. -/
def Sane (ks : List Kind) : Prop := ∀ p, p <+: ks → p.count .rightParen ≤ p.count .leftParen

theorem sane_nil : Sane [] := by
  intro p hp
  rw [List.prefix_nil.mp hp]
  exact Nat.le_refl _

theorem sane_concat {ks : List Kind} {k : Kind} :
    Sane (ks ++ [k]) ↔
      Sane ks ∧ (ks ++ [k]).count .rightParen ≤ (ks ++ [k]).count .leftParen := by
  constructor
  · exact fun h => ⟨fun p hp => h p (hp.trans (List.prefix_append _ _)), h _ (List.prefix_refl _)⟩
  · rintro ⟨hks, hlast⟩ p hp
    rcases List.prefix_concat_iff.mp hp with rfl | hp
    · exact hlast
    · exact hks p hp

/-- Parentheses are balanced if none is closed too many and as many are closed as are opened. -/
theorem balanced_iff {ks : List Kind} :
    Balanced ks ↔ Sane ks ∧ ks.count .rightParen = ks.count .leftParen :=
  ⟨fun h => ⟨h.sane, h.settled⟩, fun h => ⟨h.1, h.2⟩⟩

end Kind

namespace Nesting

/-- The account is that of the parentheses among `ks`. -/
structure Accounts (n : Nesting) (ks : List Kind) : Prop where
  problems : n.problems = [] ↔ Kind.Sane ks
  parens : n.problems = [] → n.parens.length + ks.count .rightParen = ks.count .leftParen

namespace Accounts

variable {n : Nesting} {ks : List Kind}

theorem empty : Accounts {} [] := ⟨⟨fun _ => Kind.sane_nil, fun _ => rfl⟩, fun _ => rfl⟩

/-- A token that is no parenthesis. -/
theorem other (h : Accounts n ks) {k : Kind} (hl : k ≠ .leftParen) (hr : k ≠ .rightParen) :
    Accounts n (ks ++ [k]) := by
  have hcl : (ks ++ [k]).count .leftParen = ks.count .leftParen := by
    simp [List.count_append, hl]
  have hcr : (ks ++ [k]).count .rightParen = ks.count .rightParen := by
    simp [List.count_append, hr]
  refine ⟨?_, fun hn => by rw [hcl, hcr]; exact h.parens hn⟩
  rw [Kind.sane_concat, hcl, hcr, h.problems]
  exact ⟨fun hs => ⟨hs, hs _ (List.prefix_refl _)⟩, fun hs => hs.1⟩

theorem congr (h : Accounts n ks) {n' : Nesting} (hproblems : n'.problems = n.problems)
    (hparens : n'.parens = n.parens) : Accounts n' ks :=
  ⟨by rw [hproblems, h.problems], by rw [hproblems, hparens]; exact h.parens⟩

theorem leftParen (h : Accounts n ks) {n' : Nesting} (hproblems : n'.problems = n.problems)
    {i : Nat} (hparens : n'.parens = i :: n.parens) : Accounts n' (ks ++ [.leftParen]) := by
  have hcl : (ks ++ [Kind.leftParen]).count .leftParen = ks.count .leftParen + 1 := by simp
  have hcr : (ks ++ [Kind.leftParen]).count .rightParen = ks.count .rightParen := by simp
  refine ⟨?_, fun hn => ?_⟩
  · rw [hproblems, Kind.sane_concat, hcl, hcr, h.problems]
    refine ⟨fun hs => ⟨hs, ?_⟩, fun hs => hs.1⟩
    exact Nat.le_succ_of_le (hs _ (List.prefix_refl _))
  · rw [hcl, hcr, ← h.parens (hproblems ▸ hn), hparens, List.length_cons]
    omega

/-- A parenthesis is closed that is open. -/
theorem rightParen (h : Accounts n ks) {n' : Nesting} (hproblems : n'.problems = n.problems)
    {i : Nat} (hparens : n.parens = i :: n'.parens) : Accounts n' (ks ++ [.rightParen]) := by
  have hcl : (ks ++ [Kind.rightParen]).count .leftParen = ks.count .leftParen := by simp
  have hcr : (ks ++ [Kind.rightParen]).count .rightParen = ks.count .rightParen + 1 := by simp
  have hlength : n.parens.length = n'.parens.length + 1 := by rw [hparens, List.length_cons]
  refine ⟨?_, fun hn => ?_⟩
  · rw [hproblems, Kind.sane_concat, hcl, hcr, h.problems]
    refine ⟨fun hs => ⟨hs, ?_⟩, fun hs => hs.1⟩
    have := h.parens (h.problems.mpr hs)
    omega
  · have := h.parens (hproblems ▸ hn)
    rw [hcl, hcr]
    omega

/-- A parenthesis is closed though none is open. -/
theorem rightParen_alone (h : Accounts n ks) {n' : Nesting} (hproblems : n'.problems ≠ [])
    (hparens : n.parens = []) : Accounts n' (ks ++ [.rightParen]) := by
  refine ⟨⟨fun hn => absurd hn hproblems, fun hs => ?_⟩, fun hn => absurd hn hproblems⟩
  obtain ⟨hsane, hlast⟩ := Kind.sane_concat.mp hs
  -- as many are closed as were opened, and this one is one more
  have hcount := h.parens (h.problems.mpr hsane)
  rw [hparens, List.length_nil] at hcount
  have hmore : ks.count .rightParen + 1 ≤ ks.count .leftParen := by simpa using hlast
  omega

/-- **The account goes with the marks**: it has a problem as soon as one is closed too many. -/
theorem pass (h : Accounts n ks) (c : Cursor) : Accounts (n.pass c) (ks ++ [c.kind 0]) := by
  unfold Nesting.pass
  split
  · rename_i hk
    rw [hk]
    exact h.leftParen rfl rfl
  · rename_i hk
    rw [hk]
    split
    · rename_i hparens
      exact h.rightParen_alone (List.cons_ne_nil _ _) hparens
    · rename_i i is hparens
      exact h.rightParen rfl hparens
  · rename_i hk
    rw [hk]
    have hother := h.other (k := .word) (by decide) (by decide)
    split
    · exact hother.congr rfl rfl
    split
    · exact hother.congr rfl rfl
    · exact hother
  · rename_i hl hr _
    exact h.other hl hr

/-- **Nothing is left to report** just when the parentheses are balanced. -/
theorem finish_eq_nil_iff (h : Accounts n ks) : n.finish = [] ↔ Kind.Balanced ks := by
  rw [Nesting.finish, List.append_eq_nil_iff, List.reverse_eq_nil_iff, List.map_eq_nil_iff,
    List.reverse_eq_nil_iff, Kind.balanced_iff, h.problems]
  refine and_congr_right fun hs => ?_
  have := h.parens (h.problems.mpr hs)
  rw [← List.length_eq_zero_iff]
  omega

end Accounts

end Nesting

/-- Marks that are taken one after the other keep the account. -/
theorem Cursor.accounts_collect {σ : Type} {judge : σ → Cursor → Verdict σ} (nesting : σ → Nesting)
    (hgo : ∀ {s c s'}, judge s c = .go s' → nesting s' = (nesting s).pass c)
    (hlast : ∀ {s c}, judge s c = .last → c.kind 0 = .semicolon) {s : σ} {ks : List Kind}
    (h : (nesting s).Accounts ks) (c : Cursor) :
    (nesting (c.collect judge s).2.1).Accounts
      (ks ++ (leavesOfList (c.collect judge s).1).map (·.kind)) := by
  obtain ⟨prev, ahead, index⟩ := c
  simp only [Cursor.collect]
  induction ahead generalizing s ks prev index with
  | nil => simpa [SqlCaret.collect] using h
  | cons m ms ih =>
      simp only [SqlCaret.collect]
      split
      · simpa using h
      · rename_i hverdict
        have hm : m.kind = .semicolon := hlast hverdict
        simpa [hm] using h.other (k := .semicolon) (by decide) (by decide)
      · rename_i s' hverdict
        have hpass := h.pass ⟨prev, m :: ms, index⟩
        rw [← hgo hverdict, show Cursor.kind ⟨prev, m :: ms, index⟩ 0 = m.kind from rfl] at hpass
        simpa using ih hpass (some m) (index + 1)

namespace Outline

/-! ### Statements and conditions -/

/-- A statement that goes on has the mark in its account. -/
theorem nesting_of_judgeSimple_go {s s' : Clauses × Nesting} {c : Cursor}
    (h : judgeSimple s c = .go s') : s'.2 = s.2.pass c := by
  simp only [judgeSimple] at h
  repeat' split at h
  all_goals cases h
  all_goals rfl

theorem atSemicolon_of_judgeSimple_last {s : Clauses × Nesting} {c : Cursor}
    (h : judgeSimple s c = .last) : c.kind 0 = .semicolon := by
  simp only [judgeSimple] at h
  split at h
  · cases h
  split at h
  · split at h
    · rename_i hsemicolon
      simpa [Cursor.atKind] using hsemicolon
    · repeat' split at h
      all_goals cases h
  · cases h

theorem nesting_of_judgeCondition_go {n n' : Nesting} {c : Cursor}
    (h : judgeCondition n c = .go n') : n' = n.pass c := by
  simp only [judgeCondition] at h
  repeat' split at h
  all_goals cases h
  all_goals rfl

theorem judgeCondition_ne_last (n : Nesting) (c : Cursor) : judgeCondition n c ≠ .last := by
  simp only [judgeCondition]
  repeat' split
  all_goals exact nofun

/-- What the first mark and those behind it do to an empty account. -/
theorem accounts_pass_first {c : Cursor} (h : c.ahead ≠ []) :
    (({} : Nesting).pass c).Accounts ((leavesOfList c.take.1).map (·.kind)) := by
  obtain ⟨m, ms, hm⟩ := List.exists_cons_of_ne_nil h
  have hpass := Nesting.Accounts.empty.pass c
  have hkind : c.kind 0 = m.kind := by simp [Cursor.kind, hm]
  rw [take_eq hm]
  rw [hkind] at hpass
  simpa using hpass

/-- A node of leaves alone is whole if what it needs of its tokens is there. -/
theorem whole_of_allLeaves {k : Kind} {ts : List Outline} (h : AllLeaves ts) :
    Whole Mark.sign? (.node k ts) ↔ k.IsWhole (content Mark.sign? ts) := by
  rw [whole_node]
  exact and_iff_left h.wholeList

/-- The tokens that the content of a node counts are all of its leaves. -/
theorem map_kind_tokens (ts : List Outline) :
    (content Mark.sign? ts).tokens.map (·.kind) = (leavesOfList ts).map (·.kind) := by
  rw [content]
  induction leavesOfList ts with
  | nil => rfl
  | cons m ms ih => simp [Mark.sign?, ← ih]

theorem whole_simple {c : Cursor} (h : c.ahead ≠ []) :
    (simple c).problems = [] ↔ Whole Mark.sign? (simple c).value := by
  have haccounts := Cursor.accounts_collect (fun s : Clauses × Nesting => s.2)
    nesting_of_judgeSimple_go atSemicolon_of_judgeSimple_last
    (s := (Clauses.opening c, ({} : Nesting).pass c)) (accounts_pass_first h) c.take.2
  have hleaves := (allLeaves_take c).append (allLeaves_collect judgeSimple
    (Clauses.opening c, ({} : Nesting).pass c) c.take.2)
  simp only [simple]
  rw [whole_of_allLeaves hleaves, Kind.IsWhole, map_kind_tokens, leavesOfList_append,
    List.map_append]
  exact haccounts.finish_eq_nil_iff

/-- A condition is there and whole, or there is a problem. -/
theorem whole_condition (owner : Owner) (c : Cursor) :
    (condition owner c).problems = [] ↔
      .condition ∈ nodeKinds (condition owner c).value ∧
        WholeList Mark.sign? (condition owner c).value := by
  simp only [condition]
  split
  · rename_i hadmits
    have hne := ahead_ne_nil_of_admitsCondition hadmits
    have haccounts := Cursor.accounts_collect (fun n : Nesting => n)
      nesting_of_judgeCondition_go (fun hlast => absurd hlast (judgeCondition_ne_last _ _))
      (accounts_pass_first hne) c.take.2
    have hleaves := (allLeaves_take c).append (allLeaves_collect judgeCondition
      (({} : Nesting).pass c) c.take.2)
    rw [wholeList_cons, whole_of_allLeaves hleaves, Kind.IsWhole, map_kind_tokens,
      leavesOfList_append, List.map_append]
    simpa using haccounts.finish_eq_nil_iff
  · simp

end Outline

end SqlCaret
