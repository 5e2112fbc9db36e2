import SqlCaret.Proofs.Printed.Batches

/-!
# Printed — woven

The white space that was printed gets back to its place.  The tree of a printed statement comes
back when it is woven from its bare form and its own lexemes (`snug_tree`): it begins with a word
and white space in it stands in front of something.  `weaves_script` says the same of the tree of
a script, over all lexemes of its text (`leaves_scriptTrees`).
-/

namespace SqlCaret

open SqlCaret.Tree

namespace Printed

/-! ### Statements -/

section
variable {ts : List SyntaxTree}

theorem snug_word (w : Word) (h : Snug ts) : Snug (w.leaf :: ts) :=
  (Snug.leaf (isTrivia_word w)).append h

/-- White space in front of something. -/
theorem snug_gap (b : Blank) (hne : bare ts ≠ []) (h : Snug ts) : Snug (b.leaves ++ ts) := by
  have hb := kind_of_mem_blank b
  rw [Blank.leaves, leavesOfList_map_leaf] at hb
  exact h.trivia (fun l hl => isTrivia_of_mem_blankKinds (hb l hl)) hne

theorem snug_node (k : Kind) (w : Word) (h : Snug (w.leaf :: ts)) :
    Snug [.node k (w.leaf :: ts)] :=
  h.node k (isTrivia_word w) (by rw [leavesOfList_cons, leaves_leaf_word]; rfl)

theorem bare_word_ne_nil (w : Word) : bare (w.leaf :: ts) ≠ [] := by
  rw [bare_word]
  exact List.cons_ne_nil _ _

theorem bare_tree_ne_nil (p : Printed) : bare (p.tree :: ts) ≠ [] := by
  cases p with
  | simple gap semicolon => cases semicolon <;> simp [tree]
  | _ => simp [tree]

theorem bare_section_ne_nil (w : Word) (s : Section) : bare (s.trees w) ≠ [] := by
  cases s
  exact bare_word_ne_nil .BEGIN

end

/-- The trees of a condition come back in front of others. -/
theorem snug_condition (c : Condition) {ts : List SyntaxTree} (h : Snug ts) :
    Snug (c.trees ++ ts) := by
  refine Snug.append (snug_gap c.before.toBlank (by simp) (snug_node _ _ ?_)) h
  exact snug_word _ (snug_gap _ (bare_word_ne_nil _) (snug_word _ (snug_gap _ (bare_word_ne_nil _)
    (snug_word _ .nil))))

mutual

/-- **The tree of a printed statement is snug.** -/
theorem snug_tree : ∀ p : Printed, Snug [p.tree]
  | simple gap none => by
      rw [tree]
      exact snug_node _ _ (snug_word _ (snug_gap _ (bare_word_ne_nil _) (snug_word _ .nil)))
  | simple gap (some blank) => by
      rw [tree]
      exact snug_node _ _ (snug_word _ (snug_gap _ (bare_word_ne_nil _) (snug_word _
        (snug_gap _ (bare_word_ne_nil _) (snug_word _ .nil)))))
  | block inner last => by
      rw [tree]
      exact snug_node _ _ (snug_word _ ((snug_row inner).append
        (snug_gap _ (bare_word_ne_nil _) (snug_word _ .nil))))
  | tryCatch tried gap caught => by
      rw [tree]
      have hsnug : Snug (tried.trees .TRY ++ (gap.leaves ++ caught.trees .CATCH)) :=
        (snug_section .TRY tried).append
          (snug_gap _ (bare_section_ne_nil .CATCH caught) (snug_section .CATCH caught))
      -- the node begins with the `BEGIN` of its first section
      cases tried
      exact snug_node _ .BEGIN hsnug
  | ifThen condition gap yes => by
      rw [tree]
      exact snug_node _ _ (snug_word _ (snug_condition condition
        (snug_gap _ (bare_tree_ne_nil yes) (snug_tree yes))))
  | ifElse condition gap yes before after no => by
      rw [tree]
      have hno : Snug (Word.ELSE.leaf :: (after.leaves ++ [no.tree])) :=
        snug_word _ (snug_gap _ (bare_tree_ne_nil no) (snug_tree no))
      have helse := snug_gap before.toBlank (by simp) (snug_node .elseClause _ hno)
      exact snug_node _ _ (snug_word _ (snug_condition condition
        (snug_gap _ (bare_tree_ne_nil yes) ((snug_tree yes).append helse))))
  | loop condition gap body => by
      rw [tree]
      exact snug_node _ _ (snug_word _ (snug_condition condition
        (snug_gap _ (bare_tree_ne_nil body) (snug_tree body))))

theorem snug_section (w : Word) : ∀ s : Section, Snug (s.trees w)
  | .mk opening inner last closing => by
      rw [Section.trees]
      exact snug_word _ (snug_gap _ (bare_word_ne_nil _) (snug_word _ ((snug_row inner).append
        (snug_gap _ (bare_word_ne_nil _) (snug_word _ (snug_gap _ (bare_word_ne_nil _)
          (snug_word _ .nil)))))))

/-- **The trees of printed statements come back.** -/
theorem snug_row : ∀ r : Row, Snug r.trees
  | .nil => .nil
  | .cons gap first others => by
      rw [Row.trees]
      exact snug_gap _ (bare_tree_ne_nil first) ((snug_tree first).append (snug_row others))

end

/-! ### Scripts -/

/-- The lexemes of a script are the leaves of its tree. -/
theorem leaves_scriptTrees {bs : List Batch} (hne : bs ≠ []) :
    lexemes (scriptText bs) = leavesOfList (scriptTrees bs) := by
  induction bs with
  | nil => exact absurd rfl hne
  | cons b bs ih =>
      cases bs with
      | nil =>
          rw [scriptText_singleton, lexemes_batch_alone]
          simp [scriptTrees]
      | cons b' bs =>
          rw [lexemes_scriptText, ih (List.cons_ne_nil _ _), scriptTrees, leavesOfList_append]
          cases b with
          | empty => simp [Batch.trees, Batch.line]
          | some first others => simp [Batch.trees, Batch.line]

theorem bare_scriptTrees_ne_nil {bs : List Batch} (hne : bs ≠ []) :
    bare (scriptTrees bs) ≠ [] := by
  cases bs with
  | nil => exact absurd rfl hne
  | cons b bs =>
      cases bs with
      | nil => simp [scriptTrees]
      | cons b' bs => simp [scriptTrees, bare_line]

/-- A printed statement begins with a word. -/
theorem exists_leaves_tree (p : Printed) : ∃ w ls, leaves p.tree = Word.lexeme w :: ls := by
  have hnode : ∀ (k : Kind) (w : Word) (ts : List SyntaxTree),
      leaves (.node k (w.leaf :: ts)) = w.lexeme :: leavesOfList ts := by
    intro k w ts
    rw [leaves_node, leavesOfList_cons, leaves_leaf_word]
    rfl
  cases p with
  | simple gap semicolon => cases semicolon <;> exact ⟨.PRINT, _, by rw [tree, hnode]⟩
  | block => exact ⟨.BEGIN, _, by rw [tree, hnode]⟩
  | tryCatch tried => cases tried; exact ⟨.BEGIN, _, by rw [tree]; exact hnode _ .BEGIN _⟩
  | ifThen => exact ⟨.IF, _, by rw [tree, hnode]⟩
  | ifElse => exact ⟨.IF, _, by rw [tree, hnode]⟩
  | loop => exact ⟨.WHILE, _, by rw [tree, hnode]⟩

/-- A batch that holds statements is snug. -/
theorem snug_batch (first : Printed) (others : Row) :
    Snug [.node .batch (first.tree :: others.trees)] := by
  have hsnug : Snug (first.tree :: others.trees) := (snug_tree first).append (snug_row others)
  obtain ⟨w, ls, hleaves⟩ := first.exists_leaves_tree
  exact hsnug.node .batch (isTrivia_word w) (by rw [leavesOfList_cons, hleaves]; rfl)

/-- A separator line in front of a script. -/
theorem weaves_goLine {bs : List Batch} (hne : bs ≠ [])
    (h : Weaves id (bare (scriptTrees bs)) (leavesOfList (scriptTrees bs)) (scriptTrees bs) []) :
    Weaves id (.node .separator [.leaf .word] :: bare (scriptTrees bs))
      (go :: lineEnd :: leavesOfList (scriptTrees bs))
      (.node .separator [.leaf go] :: .leaf lineEnd :: scriptTrees bs) [] := by
  refine .node ?_ (.leaf rfl rfl (.nil _)) (.trivia rfl (bare_scriptTrees_ne_nil hne) h)
  intro l hl
  cases hl
  rfl

/-- **The tree of a script is woven from its bare form and all lexemes of its text.** -/
theorem weaves_script {bs : List Batch} (hne : bs ≠ []) :
    Weaves id (bare (scriptTrees bs)) (lexemes (scriptText bs)) (scriptTrees bs) [] := by
  rw [leaves_scriptTrees hne]
  induction bs with
  | nil => exact absurd rfl hne
  | cons b bs ih =>
      cases bs with
      | nil =>
          cases b with
          | empty =>
              have hfirst : SignificantFirst [] := by
                intro l hl
                cases hl
              simpa [scriptTrees, Batch.trees] using
                Weaves.node (k := .batch) hfirst (.nil []) (.nil [])
          | some first others =>
              simpa [scriptTrees, Batch.trees] using snug_batch first others []
      | cons b' bs =>
          have hne' : b' :: bs ≠ [] := List.cons_ne_nil _ _
          have hgo := weaves_goLine hne' (ih hne')
          rw [scriptTrees, bare_append, bare_line, leavesOfList_append]
          cases b with
          | empty =>
              have hfirst : SignificantFirst
                  (go :: lineEnd :: leavesOfList (scriptTrees (b' :: bs))) := by
                intro l hl
                cases hl
                rfl
              -- the line end is put in front of the empty batch, which begins behind it
              have hbatch := Weaves.node (k := .batch) hfirst (.nil _) hgo
              have hline := Weaves.trivia (l := lineEnd) rfl (List.cons_ne_nil _ _) hbatch
              simpa [Batch.line, Batch.trees] using hline
          | some first others =>
              have hline := Weaves.trivia (l := lineEnd) rfl (List.cons_ne_nil _ _) hgo
              simpa [Batch.line, Batch.trees] using (snug_batch first others _).append hline

end Printed

end SqlCaret
