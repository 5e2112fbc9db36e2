import SqlCaret.Proofs.Tree.Rows
import SqlCaret.Proofs.Tree.Whole

/-!
# Trees — inside

From a token of a text to the tree that holds it.  A token that trees in a row place is placed by
just one of them (`exists_of_mem_place`), which covers it (`bounds_of_mem_place`), and no two tokens
of a text share a byte (`Token.apart`).

What a woven row has right inside comes from the outline, white space and comments apart: each token
is one of the outline's and each node is woven from one of its nodes (`Weaves.of_mem`).
-/

namespace SqlCaret

open SqlCaret.Tree

namespace Token

/-- **Two tokens of a text share no byte.** -/
theorem apart {text : List Char} {a b : Token} (ha : a ∈ tokenize text) (hb : b ∈ tokenize text) :
    a = b ∨ a.stop ≤ b.offset ∨ b.stop ≤ a.offset := by
  have horder := pairwise_stop_le_place 0 (lexemes text)
  exact List.Pairwise.forall_of_forall_of_flip
    (R := fun a b => a = b ∨ a.stop ≤ b.offset ∨ b.stop ≤ a.offset) (fun _ _ => .inl rfl)
    (horder.imp fun h => .inr (.inl h)) (horder.imp fun h => .inr (.inr h)) ha hb

end Token

namespace Tree

/-- **Which of the trees a token belongs to.** -/
theorem exists_of_mem_place {start : Nat} {ts : List SyntaxTree} {t : Token}
    (h : t ∈ Token.place start (leavesOfList ts)) :
    ∃ before u behind, ts = before ++ u :: behind ∧
      t ∈ Token.place (start + sizeOfList before) (leaves u) := by
  induction ts generalizing start with
  | nil => simp [Token.place] at h
  | cons u ts ih =>
      rw [leavesOfList_cons, Token.place_append, List.mem_append] at h
      rcases h with h | h
      · exact ⟨[], u, ts, rfl, h⟩
      · rw [← size_eq] at h
        obtain ⟨before, v, behind, rfl, hv⟩ := ih h
        exact ⟨u :: before, v, behind, rfl, by rwa [sizeOfList_cons, ← Nat.add_assoc]⟩

/-- A tree covers its tokens. -/
theorem bounds_of_mem_place {start : Nat} {u : SyntaxTree} {t : Token}
    (h : t ∈ Token.place start (leaves u)) : start ≤ t.offset ∧ t.stop ≤ start + size u := by
  rw [size_eq]
  exact Token.bounds_of_mem_place h

/-- The rows of one of the trees are among those of all. -/
theorem rows_subset (depth start : Nat) (before : List SyntaxTree) (u : SyntaxTree)
    (behind : List SyntaxTree) :
    rows depth (start + sizeOfList before) u ⊆
      rowsOfList depth start (before ++ u :: behind) := by
  rw [rowsOfList_append, rowsOfList_cons]
  exact fun r hr => List.mem_append_right _ (List.mem_append_left _ hr)

variable {α : Type} {sign? : α → Option Sign}

theorem WholeList.of_mem {ts : List (Tree α)} {t : Tree α} (h : WholeList sign? ts) (ht : t ∈ ts) :
    Whole sign? t := by
  obtain ⟨before, behind, rfl⟩ := List.append_of_mem ht
  rw [wholeList_append, wholeList_cons] at h
  exact h.2.1

theorem FormedList.of_mem {ts : List (Tree α)} {t : Tree α} (h : FormedList ts) (ht : t ∈ ts) :
    Formed t := by
  obtain ⟨before, behind, rfl⟩ := List.append_of_mem ht
  rw [formedList_append, formedList_cons] at h
  exact h.2.1

end Tree

namespace Weaves

variable {α : Type} {kindOf : α → Kind} {os : List (Tree α)} {ls rest : List Lexeme}
  {ts : List SyntaxTree}

/-- Where a woven tree comes from. -/
def From (kindOf : α → Kind) (os : List (Tree α)) : SyntaxTree → Prop
  | .leaf l => l.kind.isTrivia = true ∨ ∃ a, .leaf a ∈ os ∧ kindOf a = l.kind
  | .node k us => ∃ os' ls₁ ls₂, .node k os' ∈ os ∧ Weaves kindOf os' ls₁ us ls₂

theorem From.mono {os' : List (Tree α)} (hos : os ⊆ os') {u : SyntaxTree}
    (h : From kindOf os u) : From kindOf os' u := by
  cases u with
  | leaf l =>
      refine h.imp_right ?_
      rintro ⟨a, ha, hk⟩
      exact ⟨a, hos ha, hk⟩
  | node k us =>
      obtain ⟨os₁, ls₁, ls₂, hmem, w⟩ := h
      exact ⟨os₁, ls₁, ls₂, hos hmem, w⟩

/-- **What is woven comes from the outline**, white space and comments apart. -/
theorem of_mem (h : Weaves kindOf os ls ts rest) {u : SyntaxTree} (hu : u ∈ ts) :
    From kindOf os u := by
  induction h with
  | nil => cases hu
  | trivia ht _ _ ih =>
      rcases List.mem_cons.mp hu with rfl | hu
      · exact .inl ht
      · exact ih hu
  | leaf _ hk _ ih =>
      rcases List.mem_cons.mp hu with rfl | hu
      · exact .inr ⟨_, List.mem_cons_self, hk⟩
      · exact (ih hu).mono (List.subset_cons_self _ _)
  | node _ inner _ _ ih =>
      rcases List.mem_cons.mp hu with rfl | hu
      · exact ⟨_, _, _, List.mem_cons_self, inner⟩
      · exact (ih hu).mono (List.subset_cons_self _ _)

end Weaves

end SqlCaret
