import SqlCaret.Proofs.Statement.Fits
import SqlCaret.Proofs.Tree.Branches
import SqlCaret.Proofs.Tree.Rows
import SqlCaret.Statement.OfTree

/-!
# Statement — from formed trees

The statements of a formed tree fit between the ends of the tree, and each has the span of a
node of a statement kind (`fits_ofTrees`, `fits_batchesOf`).  All that is used of the points is
that they keep the order of the offsets.

The form is needed in one place: the statement of an `ELSE` comes after the one that `IF` takes
for its own since nothing stands behind an `ELSE` clause (`elseLast_of_holds`).
-/

namespace SqlCaret

open SqlCaret.Tree

namespace Statement

/-- The statement has the span of a node of a statement kind. -/
def OfRow (ix : LineIndex) (rs : List Row) (s : Statement) : Prop :=
  ∃ r ∈ rs, r.text = none ∧ r.kind.isStatement = true ∧
    s.span = ⟨ix.point r.start, ix.point r.stop⟩

theorem OfRow.mono {ix : LineIndex} {rs rs' : List Row} (h : rs ⊆ rs') {s : Statement} :
    OfRow ix rs s → OfRow ix rs' s
  | ⟨r, hr, hrow⟩ => ⟨r, h hr, hrow⟩

@[simp] theorem span_ofTree (ix : LineIndex) (start : Nat) (k : Kind) (ts : List SyntaxTree) :
    (ofTree ix start (.node k ts)).span = spanOf ix start (sizeOfList ts) := by
  cases k with
  | whileStatement =>
      simp only [ofTree]
      split <;> rfl
  | _ => simp only [ofTree, span]

/-- The statements right inside the statement that a node is. -/
theorem children_ofTree (ix : LineIndex) (start : Nat) (k : Kind) (ts : List SyntaxTree) :
    (ofTree ix start (.node k ts)).children =
      match k with
      | .block | .tryCatch => ofTrees ix start ts
      | .ifStatement => (first? ix start ts).toList ++ (elseBranch? ix start ts).toList
      | .whileStatement => (first? ix start ts).toList
      | _ => [] := by
  cases k with
  | whileStatement =>
      simp only [ofTree]
      cases first? ix start ts <;> rfl
  | _ => simp only [ofTree, children]

/-- There is a first statement where there is a node of a statement kind. -/
theorem isSome_first? (ix : LineIndex) (start : Nat) (ts : List SyntaxTree) :
    (first? ix start ts).isSome = (nodeKinds ts).any Kind.isStatement := by
  induction ts generalizing start with
  | nil =>
      rw [first?]
      rfl
  | cons t ts ih =>
      cases t with
      | leaf l => rw [first?, ih, nodeKinds_leaf]
      | node k cs =>
          rw [first?, nodeKinds_node, List.any_cons]
          by_cases hk : k.isStatement = true
          · rw [if_pos hk, hk]
            rfl
          · rw [if_neg hk, ih, Bool.eq_false_iff.mpr hk, Bool.false_or]

/-- Without a statement among the children a branch is missing. -/
theorem first?_eq_none (ix : LineIndex) (start : Nat) {ts : List SyntaxTree}
    (h : ∀ k ∈ nodeKinds ts, k.isStatement = false) : first? ix start ts = none := by
  rw [← Option.not_isSome_iff_eq_none, isSome_first?, List.any_eq_true]
  rintro ⟨k, hk, hstatement⟩
  rw [h k hk] at hstatement
  cases hstatement

/-- Without an `ELSE` among the children the second branch is missing. -/
theorem elseBranch?_eq_none (ix : LineIndex) (start : Nat) {ts : List SyntaxTree}
    (h : .elseClause ∉ nodeKinds ts) : elseBranch? ix start ts = none := by
  induction ts generalizing start with
  | nil => rw [elseBranch?]
  | cons t ts ih =>
      cases t with
      | leaf l =>
          rw [elseBranch?]
          exact ih _ h
      | node k cs =>
          rw [nodeKinds_node, List.mem_cons, not_or] at h
          rw [elseBranch?, if_neg (Ne.symm h.1)]
          exact ih _ h.2

/-! ### Trees in a row -/

theorem ofTrees_append (ix : LineIndex) (start : Nat) (ts us : List SyntaxTree) :
    ofTrees ix start (ts ++ us) =
      ofTrees ix start ts ++ ofTrees ix (start + sizeOfList ts) us := by
  induction ts generalizing start with
  | nil => simp [ofTrees]
  | cons t ts ih =>
      cases t with
      | leaf l =>
          rw [List.cons_append, ofTrees, ofTrees, ih, sizeOfList_cons, size_leaf, Nat.add_assoc]
      | node k cs =>
          rw [List.cons_append, ofTrees, ofTrees, ih, sizeOfList_cons, size_node, Nat.add_assoc,
            List.append_assoc]

theorem batchesOf_append (ix : LineIndex) (start : Nat) (ts us : List SyntaxTree) :
    Script.batchesOf ix start (ts ++ us) =
      Script.batchesOf ix start ts ++ Script.batchesOf ix (start + sizeOfList ts) us := by
  induction ts generalizing start with
  | nil => simp [Script.batchesOf]
  | cons t ts ih =>
      cases t with
      | leaf l => simp [Script.batchesOf, ih, Nat.add_assoc]
      | node k cs =>
          simp only [List.cons_append, Script.batchesOf, ih, sizeOfList_cons, Nat.add_assoc]
          split
          · rw [List.cons_append]
          · rfl

/-! ### Where statements fit -/

section
variable {ix : LineIndex} {depth start : Nat} {t : SyntaxTree} {ts : List SyntaxTree}
  {ss us : List Statement}

/-- The statements fit where trees in a row stand, and each has the span of one of their
nodes. -/
def FitTrees (ix : LineIndex) (depth start : Nat) (ts : List SyntaxTree)
    (ss : List Statement) : Prop :=
  Fits (OfRow ix (rowsOfList depth start ts)) (ix.point start)
    (ix.point (start + sizeOfList ts)) ss

theorem FitTrees.append (h : FitTrees ix depth start [t] ss)
    (h' : FitTrees ix depth (start + size t) ts us) :
    FitTrees ix depth start (t :: ts) (ss ++ us) := by
  rw [FitTrees, sizeOfList_cons, sizeOfList_nil, Nat.add_zero] at h
  rw [FitTrees, Nat.add_assoc, ← sizeOfList_cons] at h'
  exact (h.imp fun s => OfRow.mono (by simp)).append (h'.imp fun s => OfRow.mono (by simp))

variable (hix : ∀ m n, m ≤ n → ix.point m ≤ ix.point n)
include hix

theorem fitTrees_nil (depth start : Nat) (ts : List SyntaxTree) :
    FitTrees ix depth start ts [] := .nil (hix _ _ (Nat.le_add_right _ _))

/-- A tree without statements in front. -/
theorem FitTrees.skip (t : SyntaxTree) (h : FitTrees ix depth (start + size t) ts ss) :
    FitTrees ix depth start (t :: ts) ss :=
  (fitTrees_nil hix depth start [t]).append h

/-- Trees without statements behind. -/
theorem FitTrees.alone (ts : List SyntaxTree) (h : FitTrees ix depth start [t] ss) :
    FitTrees ix depth start (t :: ts) ss := by
  have := h.append (fitTrees_nil hix depth (start + size t) ts)
  rwa [List.append_nil] at this

omit hix in
/-- Statements of a node's children fit where the node stands. -/
theorem FitTrees.node {k : Kind} (h : FitTrees ix (depth + 1) start ts ss) :
    FitTrees ix depth start [.node k ts] ss := by
  rw [FitTrees, sizeOfList_cons, size_node, sizeOfList_nil, Nat.add_zero]
  exact h.imp fun s => OfRow.mono (by simp [rows_node])

omit hix in
/-- The statement that a node is fits where the node stands, if its children do. -/
theorem FitTrees.ofTree {k : Kind} (hk : k.isStatement = true)
    (h : FitTrees ix (depth + 1) start ts (Statement.ofTree ix start (.node k ts)).children) :
    FitTrees ix depth start [.node k ts] [Statement.ofTree ix start (.node k ts)] := by
  have hrow : OfRow ix (rowsOfList depth start [.node k ts])
      (Statement.ofTree ix start (.node k ts)) :=
    ⟨⟨depth, k, start, start + sizeOfList ts, none⟩, by simp [rows_node], rfl, hk,
      span_ofTree ix start k ts⟩
  have hnode := h.node (k := k)
  rw [FitTrees, sizeOfList_cons, size_node, sizeOfList_nil, Nat.add_zero] at hnode ⊢
  refine .cons hrow ?_ ?_ (.nil ?_)
  · rw [span_ofTree]
    exact Point.le_refl _
  · rw [span_ofTree]
    exact hnode
  · rw [span_ofTree]
    exact Point.le_refl _

mutual

/-- **The statement of a formed tree fits between its ends**, and so does all that is inside of it.
-/
theorem fits_ofTree (depth start : Nat) : ∀ t : SyntaxTree,
    t.kind?.any Kind.isStatement = true → Formed t →
      FitTrees ix depth start [t] [ofTree ix start t]
  | .leaf l, hk, _ => nomatch hk
  | .node k ts, hk, hform => by
      obtain ⟨hholds, -, hts⟩ := formed_node.mp hform
      refine .ofTree hk ?_
      rw [children_ofTree]
      split
      · exact fits_ofTrees (depth + 1) start ts hts
      · exact fits_ofTrees (depth + 1) start ts hts
      · exact fits_branches (depth + 1) start ts hts (Kind.elseLast_of_holds hholds)
      · exact fits_first? (depth + 1) start ts hts
      · exact fitTrees_nil hix (depth + 1) start ts

theorem fits_ofTrees (depth start : Nat) : ∀ ts : List SyntaxTree, FormedList ts →
    FitTrees ix depth start ts (ofTrees ix start ts)
  | [], hform => by
      rw [ofTrees]
      exact fitTrees_nil hix depth start []
  | .leaf l :: ts, hform => by
      have ih := fits_ofTrees depth (start + size (.leaf l)) ts ((formedList_cons _ _).mp hform).2
      rw [ofTrees]
      rw [size_leaf] at ih
      exact ih.skip hix _
  | .node k cs :: ts, hform => by
      obtain ⟨hnode, hrest⟩ := (formedList_cons _ _).mp hform
      have ih := fits_ofTrees depth (start + sizeOfList cs) ts hrest
      rw [ofTrees]
      refine .append ?_ ih
      split
      · exact fits_ofTree depth start (.node k cs) ‹_› hnode
      split
      · exact (fits_ofTrees (depth + 1) start cs (formed_node.mp hnode).2.2).node
      · exact fitTrees_nil hix depth start _

theorem fits_first? (depth start : Nat) : ∀ ts : List SyntaxTree, FormedList ts →
    FitTrees ix depth start ts (first? ix start ts).toList
  | [], hform => by
      rw [first?]
      exact fitTrees_nil hix depth start []
  | .leaf l :: ts, hform => by
      have ih := fits_first? depth (start + size (.leaf l)) ts ((formedList_cons _ _).mp hform).2
      rw [first?]
      rw [size_leaf] at ih
      exact ih.skip hix _
  | .node k cs :: ts, hform => by
      obtain ⟨hnode, hrest⟩ := (formedList_cons _ _).mp hform
      have ih := fits_first? depth (start + sizeOfList cs) ts hrest
      rw [first?]
      split
      · exact (fits_ofTree depth start (.node k cs) ‹_› hnode).alone hix ts
      · exact FitTrees.skip hix (.node k cs) ih

theorem fits_branches (depth start : Nat) : ∀ ts : List SyntaxTree, FormedList ts →
    Kind.ElseLast (nodeKinds ts) →
      FitTrees ix depth start ts ((first? ix start ts).toList ++ (elseBranch? ix start ts).toList)
  | [], hform, helse => by
      rw [first?, elseBranch?]
      exact fitTrees_nil hix depth start []
  | .leaf l :: ts, hform, helse => by
      have ih := fits_branches depth (start + size (.leaf l)) ts
        ((formedList_cons _ _).mp hform).2 helse
      rw [first?, elseBranch?]
      rw [size_leaf] at ih
      exact ih.skip hix _
  | .node k cs :: ts, hform, helse => by
      obtain ⟨hnode, hrest⟩ := (formedList_cons _ _).mp hform
      have ih := fits_branches depth (start + sizeOfList cs) ts hrest
        (Kind.elseLast_tail helse)
      rw [first?, elseBranch?]
      split
      · rename_i hk
        rw [if_neg (by rintro rfl; cases hk)]
        exact (fits_ofTree depth start (.node k cs) hk hnode).append ih.of_append_right
      split
      · rename_i hk
        -- nothing stands behind the `ELSE` clause, so no first branch does
        have hnone := helse [] (nodeKinds ts) (by rw [hk]; rfl)
        rw [first?_eq_none ix _ (by simp [hnone])]
        exact (fits_first? (depth + 1) start cs (formed_node.mp hnode).2.2).node.alone hix ts
      · exact FitTrees.skip hix (.node k cs) ih

end

/-- **The statements of all batches fit one after the other.** -/
theorem fits_batchesOf (depth start : Nat) {ts : List SyntaxTree} (hform : FormedList ts) :
    FitTrees ix depth start ts (Script.batchesOf ix start ts).flatten := by
  induction ts generalizing start with
  | nil =>
      rw [Script.batchesOf]
      exact fitTrees_nil hix depth start []
  | cons t ts ih =>
      obtain ⟨ht, hrest⟩ := (formedList_cons _ _).mp hform
      have ih := ih (start + size t) hrest
      simp only [Script.batchesOf]
      split
      · rw [List.flatten_cons]
        exact (fits_ofTrees hix (depth + 1) start _ (formed_node.mp ht).2.2).node.append ih
      · exact ih.skip hix t

end

end Statement

end SqlCaret
