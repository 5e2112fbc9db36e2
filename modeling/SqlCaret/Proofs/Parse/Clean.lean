import SqlCaret.Proofs.Parse.Alike
import SqlCaret.Proofs.Parse.Complete
import SqlCaret.Proofs.Tree.Inside

/-!
# Parse — clean

What stands right inside the batches of a text without errors.  A row of statements takes no token
but a semicolon for itself (`Outline.kind_of_leaf_mem_row`), whatever the text; and where there are
no errors, no node of a batch is an error.  So statements, semicolons, white space and comments are
all that a batch has right inside (`Parse.of_node_mem_script`, `Parse.isStatement_of_mem_batch`),
and nothing significant stands between batches and separators (`Parse.isTrivia_of_leaf_mem_script`).
-/

namespace SqlCaret

open SqlCaret.Tree

namespace Outline

/-! ### Tokens among statements -/

theorem kind_of_leaf_mem_itemBy {statement : Rule Outline} {c : Cursor} {m : Mark}
    (hs : ∃ k ts, (statement c).value = .node k ts) (h : .leaf m ∈ (itemBy statement c).value) :
    m.kind = .semicolon := by
  simp only [itemBy] at h
  split at h
  · rename_i hsemicolon
    obtain ⟨prev, ahead, index⟩ := c
    cases ahead with
    | nil => simp [Cursor.take] at h
    | cons m' ms =>
        obtain rfl : m = m' := by simpa [Cursor.take] using h
        simpa [Cursor.atKind, Cursor.kind] using hsemicolon
  split at h
  · simp at h
  split at h
  · simp at h
  split at h
  · simp at h
  · obtain ⟨k, ts, hvalue⟩ := hs
    simp [hvalue] at h

/-- **Among statements there are no tokens but semicolons.** -/
theorem kind_of_leaf_mem_row {k : Closer} {c : Cursor} {m : Mark}
    (h : .leaf m ∈ (row k c).value) : m.kind = .semicolon := by
  induction hl : c.ahead.length using Nat.strongRecOn generalizing c with
  | ind l ih =>
      subst hl
      rcases row_cases k c with ⟨-, hrow⟩ | ⟨-, hne, hlt, hrow⟩
      · simp [hrow] at h
      · obtain ⟨k', ts, hvalue, -⟩ := read_value hne
        rw [hrow] at h
        rcases List.mem_append.mp h with h | h
        · exact kind_of_leaf_mem_itemBy ⟨k', ts, hvalue⟩ h
        · exact ih _ hlt h rfl

/-- A script has nothing but batches and separators right inside. -/
theorem of_mem_batches {count : Nat} {c : Cursor} {o : Outline} (h : o ∈ (batches count c).value) :
    (∃ d, o = .node .batch (row .never d).value) ∨ ∃ os, o = .node .separator os := by
  induction count generalizing c with
  | zero => simp [batches] at h
  | succ n ih =>
      simp only [batches] at h
      split at h
      · rcases List.mem_cons.mp h with rfl | h
        · exact .inl ⟨c, rfl⟩
        rcases List.mem_cons.mp h with rfl | h
        · exact .inr ⟨_, rfl⟩
        · exact ih h
      · rw [List.mem_singleton] at h
        exact .inl ⟨c, h⟩

end Outline

namespace Parse

variable {text separator : List Char}

/-- What stands right inside a script is white space or a comment, or it comes from the outline. -/
theorem of_mem_script {u : SyntaxTree} (hu : u ∈ (ofText text separator).tree.children) :
    (∃ l, l.kind.isTrivia = true ∧ u = .leaf l) ∨
      Weaves.From Mark.kind (outlines separator text) u := by
  obtain ⟨ts, rest, hw, hrest⟩ := exists_weaves_lexemes separator text
  rw [(ofText_eq hw hrest).2] at hu
  rcases List.mem_append.mp hu with hu | hu
  · exact .inr (hw.of_mem hu)
  · obtain ⟨l, hl, rfl⟩ := List.mem_map.mp hu
    exact .inl ⟨l, hrest l hl, rfl⟩

/-- **Right inside a script** no token is significant. -/
theorem isTrivia_of_leaf_mem_script {l : Lexeme}
    (hl : .leaf l ∈ (ofText text separator).tree.children) : l.kind.isTrivia = true := by
  rcases of_mem_script hl with ⟨l', hl', heq⟩ | htrivia | ⟨m, hm, -⟩
  · obtain rfl := Tree.leaf.inj heq
    exact hl'
  · exact htrivia
  · rcases Outline.of_mem_batches hm with ⟨d, hd⟩ | ⟨os, hos⟩
    · cases hd
    · cases hos

/-- **Right inside a batch** no token is significant but semicolons; other nodes of a script are
separators. -/
theorem of_node_mem_script {k : Kind} {us : List SyntaxTree}
    (hu : .node k us ∈ (ofText text separator).tree.children) :
    k = .separator ∨
      k = .batch ∧ ∀ l, .leaf l ∈ us → l.kind.isTrivia = true ∨ l.kind = .semicolon := by
  rcases of_mem_script hu with ⟨l, -, heq⟩ | ⟨os, ls₁, ls₂, hos, hinner⟩
  · cases heq
  rcases Outline.of_mem_batches hos with ⟨d, hd⟩ | ⟨os', hos'⟩
  · obtain ⟨rfl, rfl⟩ := Tree.node.inj hd
    refine .inr ⟨rfl, fun l hl => (hinner.of_mem hl).imp_right ?_⟩
    rintro ⟨m, hm, hkind⟩
    exact hkind ▸ Outline.kind_of_leaf_mem_row hm
  · exact .inl (Tree.node.inj hos').1

/-- Where there are no errors, every node is whole. -/
theorem whole_of_errors_eq_nil (h : (ofText text separator).errors = []) :
    Whole Lexeme.sign? (ofText text separator).tree := by
  rw [errors_eq, SyntaxError.sort_eq_nil_iff, List.append_eq_nil_iff, List.map_eq_nil_iff] at h
  exact (whole_tree_iff text separator).mpr
    ((Outline.whole_script (proper_cursor separator text)).mp h.1)

/-- **Right inside a batch of a text without errors** each node is a statement. -/
theorem isStatement_of_mem_batch (h : (ofText text separator).errors = [])
    {us vs : List SyntaxTree} {k : Kind}
    (hu : .node .batch us ∈ (ofText text separator).tree.children) (hv : .node k vs ∈ us) :
    k.isStatement = true := by
  obtain ⟨ts, htree, -, -, -, hform, -⟩ := exists_tree text separator
  have hwhole := whole_of_errors_eq_nil h
  rw [htree, whole_node] at hwhole
  rw [htree] at hu
  have hitems : k.isItem = true := by
    have hholds := (formed_node.mp (hform.of_mem hu)).1
    refine List.all_eq_true.mp hholds k (List.mem_filterMap.mpr ⟨_, hv, rfl⟩)
  rw [Kind.isItem, Bool.or_eq_true] at hitems
  refine hitems.resolve_right fun herror => ?_
  -- an error is an item as well, but it is never whole
  have hv := (whole_node.mp (hwhole.2.of_mem hu)).2.of_mem hv
  rw [eq_of_beq herror, whole_node] at hv
  exact hv.1

end Parse

end SqlCaret
