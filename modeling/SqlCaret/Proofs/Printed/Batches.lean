import SqlCaret.Proofs.Outline.Form
import SqlCaret.Proofs.Printed.Read

/-!
# Printed — batches

The grammar reads printed batches (`clean_batches`).  A separator line is found wherever it is
printed, since a line ends right in front of it and right behind it (`AtGoLine.of_ahead`), and each
batch ends there, or with the script.

`scriptTrees` is the tree of a script.  The line end in front of a separator stands behind the
batch if that holds statements, and in front of it if it is empty: white space is put into a tree
before the next node begins.
-/

namespace SqlCaret

open SqlCaret.Tree

namespace Printed

/-- A batch with the separator line behind it. -/
def Batch.line : Batch → List SyntaxTree
  | empty =>
    [.leaf lineEnd, .node .batch [], .node .separator [.leaf go], .leaf lineEnd]
  | some first others =>
    [.node .batch (first.tree :: others.trees), .leaf lineEnd, .node .separator [.leaf go],
      .leaf lineEnd]

/-- The trees of batches with a separator line between each two. -/
def scriptTrees : List Batch → List SyntaxTree
  | [] => []
  | [b] => [.node .batch b.trees]
  | b :: b' :: bs => b.line ++ scriptTrees (b' :: bs)

theorem bare_line (b : Batch) :
    bare b.line = [.node .batch (bare b.trees), .node .separator [.leaf .word]] := by
  have hline : ∀ ts, bare (.leaf lineEnd :: ts) = bare ts := fun ts => bare_trivia rfl ts
  have hgo : bare [.leaf go] = [.leaf .word] := by
    rw [bare_leaf rfl, bare_nil]
    rfl
  cases b with
  | empty => simp [Batch.line, Batch.trees, hline, hgo]
  | some first others => simp [Batch.line, Batch.trees, hline, hgo]

/-! ### Separator lines -/

/-- The mark of a separator that stands alone on its line. -/
def goMark : Mark := ⟨.word, none, true, true, true⟩

/-- The marks of a separator line and of what stands behind it. -/
theorem read_goLine (o b : Bool) (ls : List Lexeme) :
    Mark.read defaultSeparator o b (lineEnd :: go :: lineEnd :: ls) =
      goMark :: Mark.read defaultSeparator true true ls := by
  have hgo : Mark.ofLexeme defaultSeparator true true go = goMark := by decide +kernel
  have hbreak : Mark.hasBreak lineEnd.text = true := rfl
  have hline : lineEnd.kind = .newline := rfl
  have hword : go.kind = .word := rfl
  simp only [Mark.read, hline, hbreak, hword, Kind.isTrivia, hgo, Bool.or_true, if_true,
    Bool.false_eq_true, if_false]

/-- Where a line ends in front of lexemes, one ends in front of the first mark. -/
theorem afterBreak_read (o : Bool) (ls : List Lexeme) (prev : Option Mark) (index : Nat) :
    (Cursor.mk prev (Mark.read defaultSeparator o true ls) index).afterBreak 0 = true := by
  induction ls generalizing o with
  | nil => rfl
  | cons l ls ih =>
      by_cases hl : l.kind.isTrivia = true
      · rw [Mark.read, if_pos hl, Bool.true_or]
        exact ih _
      · rw [Mark.read, if_neg hl]
        rfl

/-- A separator line ahead, and what stands behind it. -/
inductive AtGoLine : Cursor → List Lexeme → Cursor → Prop where
  | mk (prev : Option Mark) (ls : List Lexeme) (index : Nat) :
      AtGoLine ⟨prev, goMark :: Mark.read defaultSeparator true true ls, index⟩ ls
        ⟨some goMark, Mark.read defaultSeparator true true ls, index + 1⟩

namespace AtGoLine

variable {c c' : Cursor} {ls : List Lexeme}

theorem of_ahead {o b : Bool}
    (h : c.ahead = Mark.read defaultSeparator o b (lineEnd :: go :: lineEnd :: ls)) :
    ∃ c', AtGoLine c ls c' := by
  rw [read_goLine] at h
  obtain ⟨prev, ahead, index⟩ := c
  subst h
  exact ⟨_, .mk prev ls index⟩

theorem ahead_eq (h : AtGoLine c ls c') : c'.ahead = Mark.read defaultSeparator true true ls := by
  cases h
  rfl

theorem length_eq (h : AtGoLine c ls c') : c.ahead.length = c'.ahead.length + 1 := by
  cases h
  rfl

theorem atSeparator (h : AtGoLine c ls c') : c.atSeparator = true := by
  cases h with
  | mk prev _ index =>
      have hbreak : (Cursor.mk prev (goMark :: Mark.read defaultSeparator true true ls)
          index).afterBreak 1 = true := afterBreak_read true ls prev index
      rw [Cursor.atSeparator, hbreak]
      rfl

theorem follows (h : AtGoLine c ls c') : Follows c := by
  refine .separator h.atSeparator ?_ ?_
  · cases h
    rfl
  · cases h
    rfl

/-- No repeat count stands behind it. -/
theorem clean_separator (h : AtGoLine c ls c') :
    Outline.Clean (Outline.one (Outline.separator c))
      [.node .separator [.leaf .word]] c' := by
  cases h with
  | mk prev _ index =>
      have hbreak := afterBreak_read true ls (some goMark) (index + 1)
      simp only [Outline.one, Outline.separator, Cursor.take, Cursor.takeIf, hbreak,
        Bool.not_true, Bool.and_false, Bool.false_eq_true, if_false]
      exact ⟨rfl, rfl, rfl⟩

end AtGoLine

end Printed

namespace Outline

variable {c c₁ c₂ c' : Cursor} {ks kl kr : List (Tree Kind)} {count : Nat}

/-- The last batch. -/
theorem clean_batches_last (hb : Clean (one (batch c)) ks c') (hend : c'.atSeparator = false) :
    Clean (batches (count + 1) c) ks c' := by
  obtain ⟨hvalue, hproblems, rfl⟩ := hb
  have hseparator : (batch c).rest.atSeparator = false := hend
  simp only [batches, hseparator, Bool.false_eq_true, if_false]
  exact ⟨hvalue, hproblems, rfl⟩

/-- A batch, a separator line and the batches behind it. -/
theorem clean_batches_line (hb : Clean (one (batch c)) ks c₁) (hsep : c₁.atSeparator = true)
    (hl : Clean (one (separator c₁)) kl c₂) (hr : Clean (batches count c₂) kr c') :
    Clean (batches (count + 1) c) (ks ++ (kl ++ kr)) c' := by
  obtain ⟨rfl, hpb, rfl⟩ := hb
  obtain ⟨rfl, hpl, rfl⟩ := hl
  obtain ⟨rfl, hpr, hrest⟩ := hr
  simp only [one] at *
  simp only [batches, hsep, if_true]
  refine ⟨?_, ?_, hrest⟩
  · simp
  · simp [hpb, hpl, hpr]

end Outline

namespace Printed

/-! ### Batches -/

open Outline (Clean one read row)

/-- **One batch**, up to a separator line or the end of the script. -/
theorem clean_batch (b : Batch) {c c' : Cursor} (hu : b.unambiguous = true)
    (h : Through c b.words c') (hc' : Follows c') (hend : c'.atBatchEnd = true) :
    Clean (one (Outline.batch c)) [.node .batch (bare b.trees)] c' := by
  have hnever : (c'.atBatchEnd || Closer.never.closes c') = true := by rw [hend, Bool.true_or]
  have hrow : Clean (row .never c) (bare b.trees) c' := by
    cases b with
    | empty => exact clean_row .nil .never rfl h hc' hnever
    | some first others =>
        rw [Batch.unambiguous, Bool.and_eq_true] at hu
        obtain ⟨c₁, hfirst, hothers⟩ := h.split
        have hs := clean_read first hu.1 hfirst (hothers.follows_row hc') fun _ =>
          hothers.atKeyword_else hc' hnever
        have hr := clean_row others .never hu.2 hothers hc' hnever
        rw [Outline.row_eq, Batch.trees, bare_tree_cons]
        exact Outline.clean_itemsBy_cons hfirst.starts hs hr
  obtain ⟨hvalue, hproblems, hrest⟩ := hrow
  refine ⟨?_, hproblems, hrest⟩
  rw [← hvalue]
  simp [one, Outline.batch, row]

/-- **Batches and the separator lines between them.** -/
theorem clean_batches {bs : List Batch} (hne : bs ≠ []) (hu : ∀ b ∈ bs, b.unambiguous = true)
    {count : Nat} {c : Cursor} {o b : Bool} (hlt : c.ahead.length < count)
    (hc : c.ahead = Mark.read defaultSeparator o b (lexemes (scriptText bs))) :
    ∃ c', Clean (Outline.batches count c) (bare (scriptTrees bs)) c' := by
  induction bs generalizing count c o b with
  | nil => exact absurd rfl hne
  | cons d bs ih =>
      obtain ⟨n, rfl⟩ := Nat.exists_eq_add_one.mpr (Nat.zero_lt_of_lt hlt)
      have hd := hu d List.mem_cons_self
      cases bs with
      | nil =>
          rw [scriptText_singleton, lexemes_batch_alone,
            ← List.append_nil (leavesOfList d.trees)] at hc
          obtain ⟨c', o', b', hthrough, hahead⟩ := exists_through (spaced_batch d) hc
          rw [Mark.read] at hahead
          have hbatch := clean_batch d hd hthrough (.nothing hahead)
            (by simp [Cursor.atBatchEnd, Cursor.atEnd, hahead])
          refine ⟨c', ?_⟩
          rw [scriptTrees, bare_node, bare_nil]
          exact Outline.clean_batches_last hbatch
            (by simp [Cursor.atSeparator, Cursor.spellsSeparator, hahead])
      | cons d' bs =>
          rw [lexemes_scriptText] at hc
          obtain ⟨c₁, o₁, b₁, hthrough, hahead⟩ := exists_through (spaced_batch d) hc
          obtain ⟨c₂, hline⟩ := AtGoLine.of_ahead hahead
          have hbatch := clean_batch d hd hthrough hline.follows
            (by rw [Cursor.atBatchEnd, hline.atSeparator, Bool.or_true])
          -- the separator is a mark, so what is left of the count is enough
          have hlength : c₂.ahead.length < n := by
            have hle := (Outline.consumes_batch c).length_le
            have hrest : (Outline.batch c).rest = c₁ := hbatch.rest
            rw [hrest, hline.length_eq] at hle
            omega
          obtain ⟨c', hothers⟩ := ih (List.cons_ne_nil _ _)
            (fun e he => hu e (List.mem_cons_of_mem _ he)) hlength hline.ahead_eq
          refine ⟨c', ?_⟩
          rw [scriptTrees, bare_append, bare_line]
          exact Outline.clean_batches_line hbatch hline.atSeparator hline.clean_separator hothers

end Printed

end SqlCaret
