import Mathlib.Data.List.Perm.Basic
import SqlCaret.Proofs.Statement.Locate

/-!
# Statement — postorder

The statements of a row, those inside a statement before it: the order in which the inner scope
tries them.  `postorder` says what the order is, and it is the preorder rearranged
(`perm_postorder`).

A locator answers with the first statement that contains the point: in the inner scope the first in
postorder (`locate_inner`), which has no statement inside that contains the point as well
(`eq_false_of_find?_postorder`), and in the block scope the first of the row itself
(`locate_block`).  None of this asks how the spans of the statements lie to each other, so it holds
of scripts that are not valid too.
-/

namespace SqlCaret

namespace Statement

mutual

/-- All that is inside a statement, and then the statement. -/
def postorder : Statement → List Statement
  | s@(simple _) => [s]
  | s@(block _ cs) => postorderOfList cs ++ [s]
  | s@(conditional _ t e) => postorderOfBranch t ++ postorderOfBranch e ++ [s]
  | s@(loop _ b) => postorder b ++ [s]

/-- The statements of a row, each behind those inside of it. -/
def postorderOfList : List Statement → List Statement
  | [] => []
  | s :: ss => postorder s ++ postorderOfList ss

def postorderOfBranch : Option Statement → List Statement
  | none => []
  | some s => postorder s

end

/-! ### By the children -/

/-- What a statement holds comes first, and then the statement. -/
theorem postorder_eq (s : Statement) : s.postorder = postorderOfList s.children ++ [s] := by
  cases s with
  | simple sp => simp [postorder, children, postorderOfList]
  | block sp cs => simp [postorder, children]
  | conditional sp t e =>
      cases t <;> cases e <;> simp [postorder, children, postorderOfList, postorderOfBranch]
  | loop sp b => simp [postorder, children, postorderOfList]

/-- The statements inside are tried before the statement itself. -/
theorem innermost?_eq_or (p : Point) (s : Statement) :
    innermost? p s = (innermostOfList? p s.children).or (ownSpan? p s) := by
  cases s with
  | simple sp => simp [innermost?, children, innermostOfList?]
  | block sp cs => simp [innermost?, children]
  | conditional sp t e =>
      cases t <;> cases e <;>
        simp [innermost?, children, innermostOfList?, innermostOfBranch?]
  | loop sp b => simp [innermost?, children, innermostOfList?]

theorem postorderOfList_eq_flatMap (ss : List Statement) :
    postorderOfList ss = ss.flatMap postorder := by
  induction ss with
  | nil => rw [postorderOfList, List.flatMap_nil]
  | cons s ss ih => rw [postorderOfList, ih, List.flatMap_cons]

theorem innermostOfList?_eq_findSome? (p : Point) (ss : List Statement) :
    innermostOfList? p ss = ss.findSome? (innermost? p) := by
  induction ss with
  | nil => rw [innermostOfList?, List.findSome?_nil]
  | cons s ss ih =>
      rw [innermostOfList?, ih, List.findSome?_cons]
      cases innermost? p s <;> rfl

/-- **The postorder is the preorder rearranged**, so that each statement comes in it once. -/
theorem perm_postorder (s : Statement) : s.postorder.Perm s.preorder := by
  induction s using children_induction with
  | h s ih =>
      rw [postorder_eq, preorder_eq, postorderOfList_eq_flatMap, preorderOfList_eq_flatMap]
      exact (List.perm_append_singleton s _).trans ((List.Perm.flatMap_left _ ih).cons s)

theorem mem_postorderOfList {ss : List Statement} {s : Statement} :
    s ∈ postorderOfList ss ↔ s ∈ preorderOfList ss := by
  rw [postorderOfList_eq_flatMap, preorderOfList_eq_flatMap]
  exact (List.Perm.flatMap_left _ fun s _ => perm_postorder s).mem_iff

/-! ### The first that contains the point -/

/-- A statement by itself is located if it holds the caret. -/
theorem ownSpan?_eq (p : Point) (s : Statement) :
    ownSpan? p s = ([s].find? (·.span.contains p)).map (·.span) := by
  cases h : s.span.contains p <;> simp [ownSpan?, h]

/-- Where the answer in each statement is the first of some statements, the first answer is the
first of all of them. -/
theorem findSome?_eq_find? {p : Point} {answer : Statement → Option Span}
    {tried : Statement → List Statement} {ss : List Statement}
    (h : ∀ s ∈ ss, answer s = ((tried s).find? (·.span.contains p)).map (·.span)) :
    ss.findSome? answer = ((ss.flatMap tried).find? (·.span.contains p)).map (·.span) := by
  induction ss with
  | nil => rfl
  | cons s ss ih =>
      rw [← List.singleton_append, List.findSome?_append, List.findSome?_singleton,
        h s List.mem_cons_self, ih fun t ht => h t (List.mem_cons_of_mem _ ht),
        List.flatMap_append, List.flatMap_singleton, List.find?_append, Option.map_or]

/-- **The innermost statement is the first in post-order that holds the caret.** -/
theorem innermost?_eq (p : Point) (s : Statement) :
    innermost? p s = (s.postorder.find? (·.span.contains p)).map (·.span) := by
  induction s using children_induction with
  | h s ih =>
      rw [innermost?_eq_or, innermostOfList?_eq_findSome?, findSome?_eq_find? ih, ownSpan?_eq,
        postorder_eq, postorderOfList_eq_flatMap, List.find?_append, Option.map_or]

/-- **The inner scope** answers with the first statement in postorder. -/
theorem locate_inner (p : Point) (ss : List Statement) :
    locate .inner p ss = ((postorderOfList ss).find? (·.span.contains p)).map (·.span) := by
  rw [locate, innermostOfList?_eq_findSome?, postorderOfList_eq_flatMap]
  exact findSome?_eq_find? fun s _ => innermost?_eq p s

/-- **The block scope** answers with the first statement of the row. -/
theorem locate_block (p : Point) (ss : List Statement) :
    locate .block p ss = (ss.find? (·.span.contains p)).map (·.span) := by
  rw [locate, findSome?_eq_find? fun s _ => ownSpan?_eq p s, List.flatMap_singleton']

/-- What is inside the first statement in postorder was tried before it. -/
theorem eq_false_of_find?_postorder {P : Statement → Bool} {m : Statement} (s : Statement)
    (h : s.postorder.find? P = some m) : ∀ d ∈ preorderOfList m.children, P d = false := by
  induction s using children_induction with
  | h s ih =>
      rw [postorder_eq, List.find?_append, Option.or_eq_some_iff] at h
      rcases h with h | ⟨hnone, h⟩
      · rw [postorderOfList_eq_flatMap, List.find?_flatMap] at h
        obtain ⟨c, hc, hfind⟩ := List.exists_of_findSome?_eq_some h
        exact ih c hc hfind
      · obtain rfl : m = s := List.mem_singleton.mp (List.mem_of_find?_eq_some h)
        intro d hd
        exact Bool.eq_false_iff.mpr (List.find?_eq_none.mp hnone d (mem_postorderOfList.mpr hd))

theorem eq_false_of_find?_postorderOfList {P : Statement → Bool} {m : Statement}
    {ss : List Statement} (h : (postorderOfList ss).find? P = some m) :
    ∀ d ∈ preorderOfList m.children, P d = false := by
  rw [postorderOfList_eq_flatMap, List.find?_flatMap] at h
  obtain ⟨s, -, hfind⟩ := List.exists_of_findSome?_eq_some h
  exact eq_false_of_find?_postorder s hfind

/-! ### Where there is no answer -/

theorem locate_inner_eq_none_iff {p : Point} {ss : List Statement} :
    locate .inner p ss = none ↔ ∀ s ∈ preorderOfList ss, s.span.contains p = false := by
  simp only [locate_inner, Option.map_eq_none_iff, List.find?_eq_none, mem_postorderOfList,
    Bool.not_eq_true]

theorem locate_block_eq_none_iff {p : Point} {ss : List Statement} :
    locate .block p ss = none ↔ ∀ s ∈ ss, s.span.contains p = false := by
  simp only [locate_block, Option.map_eq_none_iff, List.find?_eq_none, Bool.not_eq_true]

/-! ### Batches -/

/-- Lists of statements are searched one after the other. -/
theorem locate_append (scope : Scope) (p : Point) (ss ts : List Statement) :
    locate scope p (ss ++ ts) = (locate scope p ss).or (locate scope p ts) := by
  cases scope with
  | block => rw [locate, locate, locate, List.findSome?_append]
  | inner => simp only [locate, innermostOfList?_eq_findSome?, List.findSome?_append]

theorem locate_nil (scope : Scope) (p : Point) : locate scope p [] = none := by
  cases scope with
  | block => rfl
  | inner => rw [locate, innermostOfList?]

end Statement

/-- The batches of a script are searched as one row. -/
theorem Script.locate_eq (scope : Scope) (p : Point) (s : Script) :
    s.locate scope p = Statement.locate scope p s.topLevel := by
  rw [locate, topLevel]
  induction s.batches with
  | nil => rw [List.findSome?_nil, List.flatten_nil, Statement.locate_nil]
  | cons b bs ih =>
      rw [← List.singleton_append, List.findSome?_append, List.findSome?_singleton, ih,
        List.singleton_append, List.flatten_cons, Statement.locate_append]

/-- **A locator answers with the first statement that contains the point**, whatever the spans of
the statements.  In the inner scope that is the first in postorder, and no statement inside it
contains the point; in the block scope it is the first of the row.  There is no answer just when no
such statement contains the point.  The batches of a script are searched as one row.

A span contains the points from its start to its end, both included, in the order of lines and of
offsets along a line; one that runs backwards contains none. -/
theorem Statement.locate_answers_first (p : Point) (ss : List Statement) :
    locate .inner p ss = ((postorderOfList ss).find? (·.span.contains p)).map (·.span) ∧
      (∀ m, (postorderOfList ss).find? (·.span.contains p) = some m →
        ∀ d ∈ preorderOfList m.children, d.span.contains p = false) ∧
      (locate .inner p ss = none ↔ ∀ s ∈ preorderOfList ss, s.span.contains p = false) ∧
      locate .block p ss = (ss.find? (·.span.contains p)).map (·.span) ∧
      (locate .block p ss = none ↔ ∀ s ∈ ss, s.span.contains p = false) ∧
      (∀ sp : Span, sp.contains p = true ↔
        (sp.start.line < p.line ∨ sp.start.line = p.line ∧ sp.start.offset ≤ p.offset) ∧
          (p.line < sp.stop.line ∨ p.line = sp.stop.line ∧ p.offset ≤ sp.stop.offset)) ∧
      ∀ (scope : Scope) (s : Script), s.locate scope p = locate scope p s.topLevel := by
  refine ⟨locate_inner p ss, fun m => eq_false_of_find?_postorderOfList, locate_inner_eq_none_iff,
    locate_block p ss, locate_block_eq_none_iff, fun sp => ?_,
    fun scope => Script.locate_eq scope p⟩
  rw [Span.contains_iff, Point.le_iff, Point.le_iff]

end SqlCaret
