import Mathlib.Data.List.Forall2
import SqlCaret.Proofs.Tree.Stretches

/-!
# Trees — beside

Trees side by side.  `Beside R ts us` says that `ts` and `us` have the same nodes and that their
leaves are related by `R` in pairs; so a node of the one stands over just the leaves, counted from
the left, that the same node of the other stands over (`Beside.stretchesOfList`).

One outline woven over lexemes that are related in pairs gives trees that are side by side
(`Weaves.beside`).
-/

namespace SqlCaret

open SqlCaret.Tree

variable {α β : Type} {R : α → β → Prop}

/-- The same nodes over leaves that are related in pairs. -/
inductive Beside (R : α → β → Prop) : List (Tree α) → List (Tree β) → Prop where
  | nil : Beside R [] []
  | leaf {a : α} {b : β} {ts : List (Tree α)} {us : List (Tree β)} (h : R a b)
      (w : Beside R ts us) : Beside R (.leaf a :: ts) (.leaf b :: us)
  | node {k : Kind} {ts ts' : List (Tree α)} {us us' : List (Tree β)} (inner : Beside R ts us)
      (w : Beside R ts' us') : Beside R (.node k ts :: ts') (.node k us :: us')

namespace Beside

variable {ts ts' : List (Tree α)} {us us' : List (Tree β)}

theorem append (h : Beside R ts us) (h' : Beside R ts' us') : Beside R (ts ++ ts') (us ++ us') := by
  induction h with
  | nil => exact h'
  | leaf hab _ ih => exact .leaf hab ih
  | node inner _ _ ih => exact .node inner ih

theorem map_leaf {as : List α} {bs : List β} (h : List.Forall₂ R as bs) :
    Beside R (as.map .leaf) (bs.map .leaf) := by
  induction h with
  | nil => exact .nil
  | cons hab _ ih => exact .leaf hab ih

theorem children {t : Tree α} {u : Tree β} (h : Beside R [t] [u]) :
    Beside R t.children u.children := by
  cases h with
  | leaf => exact .nil
  | node inner => exact inner

theorem mono {S : α → β → Prop} (hRS : ∀ a b, R a b → S a b) (h : Beside R ts us) :
    Beside S ts us := by
  induction h with
  | nil => exact .nil
  | leaf hab _ ih => exact .leaf (hRS _ _ hab) ih
  | node _ _ ih₁ ih₂ => exact .node ih₁ ih₂

theorem length_leavesOfList (h : Beside R ts us) :
    (leavesOfList ts).length = (leavesOfList us).length := by
  induction h with
  | nil => rfl
  | leaf _ _ ih => simp [ih]
  | node _ _ ih₁ ih₂ => simp [ih₁, ih₂]

/-- **The same nodes stand over the same leaves**, told by how many come before. -/
theorem stretchesOfList (h : Beside R ts us) (first : Nat) :
    Tree.stretchesOfList first ts = Tree.stretchesOfList first us := by
  induction h generalizing first with
  | nil => rfl
  | leaf _ _ ih => simp [ih]
  | node inner _ ih₁ ih₂ => simp [ih₁, ih₂, inner.length_leavesOfList]

end Beside

/-- **One outline over two texts.**  Where the lexemes are related in pairs, so are the leaves of
what is woven, and the lexemes left over. -/
theorem Weaves.beside {kindOf : α → Kind} {R : Lexeme → Lexeme → Prop}
    (hkind : ∀ l l', R l l' → l.kind = l'.kind) {os : List (Tree α)} {ls rest : List Lexeme}
    {ts : List SyntaxTree} (h : Weaves kindOf os ls ts rest) {ls' rest' : List Lexeme}
    {ts' : List SyntaxTree} (hls : List.Forall₂ R ls ls') (h' : Weaves kindOf os ls' ts' rest') :
    Beside R ts ts' ∧ List.Forall₂ R rest rest' := by
  -- the kind of the next lexeme says which step comes next
  induction h generalizing ls' ts' rest' with
  | nil ls =>
      cases h' with
      | nil => exact ⟨.nil, hls⟩
      | trivia _ hos => exact absurd rfl hos
  | trivia ht _ _ ih =>
      cases hls with
      | cons hl hls =>
      rw [hkind _ _ hl] at ht
      cases h' with
      | nil => contradiction
      | trivia _ _ w' =>
          obtain ⟨hts, hrest⟩ := ih hls w'
          exact ⟨.leaf hl hts, hrest⟩
      | leaf hsig => rw [hsig] at ht; cases ht
      | node hfirst => rw [hfirst _ rfl] at ht; cases ht
  | leaf hsig _ _ ih =>
      cases hls with
      | cons hl hls =>
      rw [hkind _ _ hl] at hsig
      cases h' with
      | trivia ht => rw [hsig] at ht; cases ht
      | leaf _ _ w' =>
          obtain ⟨hts, hrest⟩ := ih hls w'
          exact ⟨.leaf hl hts, hrest⟩
  | node hfirst _ _ ih₁ ih₂ =>
      cases h' with
      | trivia ht =>
          cases hls with
          | cons hl => rw [← hkind _ _ hl, hfirst _ rfl] at ht; cases ht
      | node _ inner' w' =>
          obtain ⟨hus, hls₁⟩ := ih₁ hls inner'
          obtain ⟨hts, hrest⟩ := ih₂ hls₁ w'
          exact ⟨.node hus hts, hrest⟩

end SqlCaret
