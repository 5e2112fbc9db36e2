import SqlCaret.Proofs.Tree.Woven

/-!
# Trees — bare

A syntax tree without its white space and with kinds for its leaves: what is left to compare
with an outline.  A row of syntax trees is `Snug` when weaving its bare form over its own
leaves gives it back, whatever stands behind.  That is so of words, of white space in front of
something, and of nodes that begin with a word (`Snug.node`).

With `Weaves.of_kinds` an outline that is known up to kinds can be woven without looking at its
marks.
-/

namespace SqlCaret

namespace Tree

variable {α β : Type}

mutual

/-- The same tree with the kinds of its leaves for leaves. -/
def kinds (kindOf : α → Kind) : Tree α → Tree Kind
  | leaf a => leaf (kindOf a)
  | node k ts => node k (kindsOfList kindOf ts)

/-- The same of trees in a row. -/
def kindsOfList (kindOf : α → Kind) : List (Tree α) → List (Tree Kind)
  | [] => []
  | t :: ts => kinds kindOf t :: kindsOfList kindOf ts

end

@[simp] theorem kinds_leaf (kindOf : α → Kind) (a : α) :
    kinds kindOf (leaf a) = leaf (kindOf a) := by rw [kinds]

@[simp] theorem kinds_node (kindOf : α → Kind) (k : Kind) (ts : List (Tree α)) :
    kinds kindOf (node k ts) = node k (kindsOfList kindOf ts) := by rw [kinds]

@[simp] theorem kindsOfList_nil (kindOf : α → Kind) : kindsOfList kindOf [] = [] := by
  rw [kindsOfList]

@[simp] theorem kindsOfList_cons (kindOf : α → Kind) (t : Tree α) (ts : List (Tree α)) :
    kindsOfList kindOf (t :: ts) = kinds kindOf t :: kindsOfList kindOf ts := by
  rw [kindsOfList]

@[simp] theorem kindsOfList_append (kindOf : α → Kind) (ts us : List (Tree α)) :
    kindsOfList kindOf (ts ++ us) = kindsOfList kindOf ts ++ kindsOfList kindOf us := by
  induction ts with
  | nil => simp
  | cons t ts ih => simp [ih]

/-- The kinds of syntax trees without white space and comments. -/
def bare : List SyntaxTree → List (Tree Kind)
  | [] => []
  | .leaf l :: ts => if l.kind.isTrivia then bare ts else leaf l.kind :: bare ts
  | .node k us :: ts => node k (bare us) :: bare ts
termination_by ts => sizeOf ts
decreasing_by all_goals simp only [List.cons.sizeOf_spec, node.sizeOf_spec]; omega

@[simp] theorem bare_nil : bare [] = [] := by rw [bare]

@[simp] theorem bare_node (k : Kind) (us ts : List SyntaxTree) :
    bare (.node k us :: ts) = node k (bare us) :: bare ts := by rw [bare]

/-- A significant token is told by its kind. -/
theorem bare_leaf {l : Lexeme} (h : l.kind.isTrivia = false) (ts : List SyntaxTree) :
    bare (.leaf l :: ts) = leaf l.kind :: bare ts := by
  rw [bare, h]
  rfl

/-- White space and comments leave nothing. -/
theorem bare_trivia {l : Lexeme} (h : l.kind.isTrivia = true) (ts : List SyntaxTree) :
    bare (.leaf l :: ts) = bare ts := by
  rw [bare, if_pos h]

@[simp] theorem bare_append (ts us : List SyntaxTree) : bare (ts ++ us) = bare ts ++ bare us := by
  induction ts with
  | nil => simp
  | cons t ts ih =>
      cases t with
      | leaf l =>
          by_cases h : l.kind.isTrivia = true
          · rw [List.cons_append, bare_trivia h, bare_trivia h, ih]
          · rw [Bool.not_eq_true] at h
            rw [List.cons_append, bare_leaf h, bare_leaf h, ih, List.cons_append]
      | node k vs => simp [ih]

theorem bare_map_leaf {ls : List Lexeme} (h : ∀ l ∈ ls, l.kind.isTrivia = true) :
    bare (ls.map .leaf) = [] := by
  induction ls with
  | nil => simp
  | cons l ls ih =>
      rw [List.map_cons, bare_trivia (h l List.mem_cons_self)]
      exact ih fun l' h' => h l' (List.mem_cons_of_mem _ h')

end Tree

open SqlCaret.Tree

variable {α : Type} {kindOf : α → Kind}

/-- **Only the kinds of an outline matter** to what is woven from it. -/
theorem Weaves.of_kinds {ks : List (Tree Kind)} {ls rest : List Lexeme} {ts : List SyntaxTree}
    (h : Weaves id ks ls ts rest) {os : List (Tree α)} (hos : kindsOfList kindOf os = ks) :
    Weaves kindOf os ls ts rest := by
  -- on the weaving; the outline has to have a tree of the same shape wherever the kinds have one
  induction h generalizing os with
  | nil ls =>
      cases os with
      | nil => exact .nil ls
      | cons => cases hos
  | trivia ht hne _ ih =>
      refine .trivia ht ?_ (ih hos)
      rintro rfl
      exact hne hos.symm
  | leaf hl hk _ ih =>
      cases os with
      | nil => cases hos
      | cons o os =>
          rw [kindsOfList_cons] at hos
          obtain ⟨ho, hrest⟩ := List.cons.inj hos
          cases o with
          | node => cases ho
          | leaf a =>
              rw [kinds_leaf] at ho
              exact .leaf hl ((Tree.leaf.inj ho).trans hk) (ih hrest)
  | node hs _ _ ih₁ ih₂ =>
      cases os with
      | nil => cases hos
      | cons o os =>
          rw [kindsOfList_cons] at hos
          obtain ⟨ho, hrest⟩ := List.cons.inj hos
          cases o with
          | leaf => cases ho
          | node k us =>
              rw [kinds_node] at ho
              obtain ⟨rfl, hus⟩ := Tree.node.inj ho
              exact .node hs (ih₁ hus) (ih₂ hrest)

/-- The syntax trees come back when they are woven from their bare form and their leaves. -/
def Snug (ts : List SyntaxTree) : Prop :=
  ∀ rest, Weaves id (bare ts) (leavesOfList ts ++ rest) ts rest

namespace Snug

variable {ts us : List SyntaxTree}

theorem nil : Snug [] := by
  intro rest
  rw [bare_nil, leavesOfList_nil, List.nil_append]
  exact .nil rest

theorem append (ht : Snug ts) (hu : Snug us) : Snug (ts ++ us) := by
  intro rest
  rw [bare_append, leavesOfList_append, List.append_assoc]
  exact (ht _).append (hu rest)

/-- A significant token comes back. -/
theorem leaf {l : Lexeme} (h : l.kind.isTrivia = false) : Snug [.leaf l] := by
  intro rest
  rw [bare_leaf h, bare_nil, leavesOfList_cons, leaves_leaf, leavesOfList_nil, List.append_nil]
  exact .leaf h rfl (.nil rest)

/-- White space comes back only in front of something, for weaving puts it there. -/
theorem trivia {ls : List Lexeme} (hls : ∀ l ∈ ls, l.kind.isTrivia = true) (hne : bare ts ≠ [])
    (h : Snug ts) : Snug (ls.map .leaf ++ ts) := by
  intro rest
  rw [bare_append, bare_map_leaf hls, leavesOfList_append, leavesOfList_map_leaf,
    List.append_assoc]
  exact (h rest).trivias hne hls

/-- A node that begins with a significant lexeme. -/
theorem node (k : Kind) {l : Lexeme} {ls : List Lexeme} (hl : l.kind.isTrivia = false)
    (hleaves : leavesOfList ts = l :: ls) (h : Snug ts) : Snug [.node k ts] := by
  intro rest
  rw [bare_node, bare_nil, leavesOfList_cons, leavesOfList_nil, leaves_node, List.append_nil]
  refine .node ?_ (h rest) (.nil rest)
  rw [hleaves]
  intro l' hl'
  cases hl'
  exact hl

end Snug

end SqlCaret
