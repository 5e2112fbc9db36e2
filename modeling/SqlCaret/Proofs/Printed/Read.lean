import SqlCaret.Proofs.Printed.Rules

/-!
# Printed — read

**The grammar reads what was printed** (`clean_read`): from the words of an unambiguous statement
it makes the statement's tree without its white space, it meets no problem, and it stops right
behind the last word.  The same goes for the statements of a row (`clean_row`) and for a `TRY` or
`CATCH` section (`clean_section`).

What stands behind matters in two ways only: it has to be something that may follow a statement
(`Follows`), and if an `IF` at the end is still open, it must not be an `ELSE`.
-/

namespace SqlCaret

open SqlCaret.Tree

namespace Printed

/-! ### Bare trees -/

@[simp] theorem bare_word (w : Word) (ts : List SyntaxTree) :
    bare (w.leaf :: ts) = .leaf w.kind :: bare ts :=
  bare_leaf (isTrivia_word w) ts

@[simp] theorem bare_blank (b : Blank) : bare b.leaves = [] := by
  have h := kind_of_mem_blank b
  rw [Blank.leaves, leavesOfList_map_leaf] at h
  exact bare_map_leaf fun l hl => isTrivia_of_mem_blankKinds (h l hl)

@[simp] theorem bare_condition (c : Condition) :
    bare c.trees = [.node .condition [.leaf .number, .leaf .operator, .leaf .number]] := by
  simp [Condition.trees, Word.kind]

/-- A statement is one node. -/
theorem bare_tree_cons (p : Printed) (ts : List SyntaxTree) :
    bare (p.tree :: ts) = bare [p.tree] ++ bare ts :=
  bare_append [p.tree] ts

/-! ### Conditions and sections -/

open Outline (Clean one read row condition sectionOf)

theorem clean_condition {c c' : Cursor} (owner : Owner) (condition : Condition)
    (h : Through c [.one, .equals, .one] c') (hc' : Starts c') :
    Clean (Outline.condition owner c) (bare condition.trees) c' := by
  obtain ⟨c₁, h₁, h⟩ := h.next
  obtain ⟨c₂, h₂, h⟩ := h.next
  obtain ⟨c₃, h₃, h⟩ := h.next
  obtain rfl := h.eq_of_nil
  rw [bare_condition]
  exact Outline.clean_condition owner h₁ h₂ h₃ hc'

/-- The words that name a section, with what ends it. -/
inductive Names : Word → Closer → Prop where
  | tried : Names .TRY .tryEnd
  | caught : Names .CATCH .catchEnd

theorem Names.kind {w : Word} {k : Closer} (h : Names w k) : w.kind = .word := by
  cases h <;> rfl

/-- A section begins with `BEGIN` and its name. -/
theorem Through.section_begins {c c' : Cursor} {w : Word} {s : Section}
    (h : Through c (s.words w) c') : ∃ c₁ c₂, Next c .BEGIN c₁ ∧ Next c₁ w c₂ := by
  cases s
  obtain ⟨c₁, h₁, h⟩ := h.next
  obtain ⟨c₂, h₂, -⟩ := h.next
  exact ⟨c₁, c₂, h₁, h₂⟩

/-- The end of a section. -/
theorem Names.closes {w : Word} {k : Closer} (h : Names w k) {c c₁ c₂ : Cursor}
    (h₁ : Next c .END c₁) (h₂ : Next c₁ w c₂) : k.closes c = true := by
  cases h <;> rw [Closer.closes, h₁.isKeyword_one, h₁.atKeyword, h₂.atKeyword] <;> rfl

theorem Names.follows {w : Word} {k : Closer} (h : Names w k) {c c₁ c₂ : Cursor}
    (h₁ : Next c .END c₁) (h₂ : Next c₁ w c₂) : Follows c := by
  refine .atEnd h₁ ?_
  cases h <;> rw [h₂.atKeyword] <;> rfl

/-- The end of a block. -/
theorem closes_block {c c₁ : Cursor} (h : Next c .END c₁) (hc₁ : Follows c₁) :
    Closer.block.closes c = true := by
  rw [Closer.closes, Cursor.closesBlock, h.atKeyword, h.isAny_one, hc₁.isAny_zero (by decide)]
  rfl

/-- Behind a statement of a row stands no `ELSE`. -/
theorem Through.atKeyword_else {c c' : Cursor} {r : Row} {k : Closer}
    (h : Through c r.words c') (hc' : Follows c') (hend : (c'.atBatchEnd || k.closes c') = true) :
    c.atKeyword .ELSE = false := by
  cases r with
  | nil =>
      rw [← h.eq_of_nil]
      exact hc'.atKeyword_else hend
  | cons gap first others =>
      obtain ⟨c₁, hfirst, -⟩ := h.split
      exact hfirst.starts.atKeyword_else

/-! ### Statements -/

mutual

/-- **One statement.** -/
theorem clean_read : ∀ (p : Printed) {c c' : Cursor}, p.unambiguous = true →
    Through c p.words c' → Follows c' → (p.isOpen = true → c'.atKeyword .ELSE = false) →
    Clean (one (read c)) (bare [p.tree]) c'
  | simple gap none, c, c', _, h, hc', _ => by
      obtain ⟨c₁, h₁, h⟩ := h.next
      obtain ⟨c₂, h₂, h⟩ := h.next
      obtain rfl := h.eq_of_nil
      rw [Outline.read_eq h₁.ahead_ne_nil, Outline.statementBy_print h₁]
      simpa [tree, Word.kind] using Outline.clean_print h₁ h₂ hc'
  | simple gap (some blank), c, c', _, h, _, _ => by
      obtain ⟨c₁, h₁, h⟩ := h.next
      obtain ⟨c₂, h₂, h⟩ := h.next
      obtain ⟨c₃, h₃, h⟩ := h.next
      obtain rfl := h.eq_of_nil
      rw [Outline.read_eq h₁.ahead_ne_nil, Outline.statementBy_print h₁]
      simpa [tree, Word.kind] using Outline.clean_print_semicolon h₁ h₂ h₃
  | block inner last, c, c', hu, h, hc', _ => by
      obtain ⟨c₁, h₁, h⟩ := h.next
      obtain ⟨c₂, hinner, h⟩ := h.split
      obtain ⟨c₃, h₃, h⟩ := h.next
      obtain rfl := h.eq_of_nil
      -- the words behind the `END` do not make it an `END TRY` or an `END CONVERSATION`
      have hc₂ : Follows c₂ := .atEnd h₃ (hc'.atKeyword (by decide))
      have hrow := clean_row inner .block hu hinner hc₂
        (by rw [closes_block h₃ hc', Bool.or_true])
      rw [Outline.read_eq h₁.ahead_ne_nil,
        Outline.statementBy_block h₁ (hinner.follows_row hc₂)]
      simpa [tree, Word.kind] using Outline.clean_block h₁ hrow h₃ hc'
  | tryCatch tried gap caught, c, c', hu, h, hc', _ => by
      rw [unambiguous, Bool.and_eq_true] at hu
      obtain ⟨c₁, htried, hcaught⟩ := h.split
      obtain ⟨c₂, c₃, hbegin, htry⟩ := htried.section_begins
      obtain ⟨c₄, c₅, hbegin', hcatch⟩ := hcaught.section_begins
      obtain ⟨ht, htried⟩ := clean_section .tried tried hu.1 htried
        (.starts ⟨.BEGIN, c₄, hbegin', rfl⟩)
      obtain ⟨hk, hcaught⟩ := clean_section .caught caught hu.2 hcaught hc'
      rw [Outline.read_eq hbegin.ahead_ne_nil, Outline.statementBy_try hbegin htry]
      simpa [tree] using Outline.clean_tryCatch ht htried hbegin' hcatch hk hcaught
  | ifThen condition gap yes, c, c', hu, h, hc', hopen => by
      obtain ⟨c₁, h₁, h⟩ := h.next
      obtain ⟨c₂, hcondition, hyes⟩ := h.condition
      have hc₂ := hyes.starts
      have hy := clean_read yes hu hyes hc' fun _ => hopen rfl
      rw [Outline.read_eq h₁.ahead_ne_nil, Outline.statementBy_if h₁]
      simpa [tree, Word.kind] using Outline.clean_ifStatement h₁
        (clean_condition .ifClause condition hcondition hc₂)
        (Outline.clean_body .ifClause hc₂ hy) (Outline.clean_elseClause_nil (hopen rfl))
  | ifElse condition gap yes before after no, c, c', hu, h, hc', hopen => by
      simp only [unambiguous, Bool.and_eq_true, Bool.not_eq_true'] at hu
      obtain ⟨⟨hclosed, huyes⟩, huno⟩ := hu
      obtain ⟨c₁, h₁, h⟩ := h.next
      obtain ⟨c₂, hcondition, h⟩ := h.condition
      obtain ⟨c₃, hyes, h⟩ := h.split
      obtain ⟨c₄, helse, hno⟩ := h.next
      have hc₂ := hyes.starts
      have hc₄ := hno.starts
      -- the first branch is not open, so the `ELSE` behind it is not its own
      have hy := clean_read yes huyes hyes (.atElse helse) fun hyopen => by
        rw [hclosed] at hyopen
        cases hyopen
      have hn := clean_read no huno hno hc' hopen
      rw [Outline.read_eq h₁.ahead_ne_nil, Outline.statementBy_if h₁]
      simpa [tree, Word.kind, bare_tree_cons yes (before.leaves ++ _)] using
        Outline.clean_ifStatement h₁ (clean_condition .ifClause condition hcondition hc₂)
          (Outline.clean_body .ifClause hc₂ hy)
          (Outline.clean_elseClause helse (Outline.clean_body .elseClause hc₄ hn))
  | loop condition gap body, c, c', hu, h, hc', hopen => by
      obtain ⟨c₁, h₁, h⟩ := h.next
      obtain ⟨c₂, hcondition, hbody⟩ := h.condition
      have hc₂ := hbody.starts
      have hb := clean_read body hu hbody hc' hopen
      rw [Outline.read_eq h₁.ahead_ne_nil, Outline.statementBy_while h₁]
      simpa [tree, Word.kind] using Outline.clean_whileStatement h₁
        (clean_condition .whileClause condition hcondition hc₂)
        (Outline.clean_body .whileClause hc₂ hb)

/-- **A section**, from its `BEGIN` to the word behind its `END`. -/
theorem clean_section : ∀ {w : Word} {k : Closer}, Names w k → ∀ (s : Section) {c c' : Cursor},
    s.unambiguous = true → Through c (s.words w) c' → Follows c' →
    (sectionOf row k c).value.2 = true ∧
      Clean ⟨(sectionOf row k c).value.1, (sectionOf row k c).problems, (sectionOf row k c).rest⟩
        (bare (s.trees w)) c'
  | w, k, hw, .mk opening inner last closing, c, c', hu, h, hc' => by
      obtain ⟨c₁, h₁, h⟩ := h.next
      obtain ⟨c₂, h₂, h⟩ := h.next
      obtain ⟨c₃, hinner, h⟩ := h.split
      obtain ⟨c₄, h₄, h⟩ := h.next
      obtain ⟨c₅, h₅, h⟩ := h.next
      obtain rfl := h.eq_of_nil
      have hrow := clean_row inner k hu hinner (hw.follows h₄ h₅)
        (by rw [hw.closes h₄ h₅, Bool.or_true])
      have hsection := Outline.clean_sectionOf h₁ h₂ hrow h₄ h₅ hc' hw.kind
      cases hw <;> simpa [Section.trees, Word.kind] using hsection

/-- **Statements one after the other**, up to where their row ends. -/
theorem clean_row : ∀ (r : Row) (k : Closer) {c c' : Cursor}, r.unambiguous = true →
    Through c r.words c' → Follows c' → (c'.atBatchEnd || k.closes c') = true →
    Clean (row k c) (bare r.trees) c'
  | .nil, k, c, c', _, h, _, hend => by
      obtain rfl := h.eq_of_nil
      rw [Outline.row_eq, Row.trees, bare_nil]
      exact Outline.clean_itemsBy_nil hend
  | .cons gap first others, k, c, c', hu, h, hc', hend => by
      rw [Row.unambiguous, Bool.and_eq_true] at hu
      obtain ⟨c₁, hfirst, hothers⟩ := h.split
      have hc₁ := hothers.follows_row hc'
      have hs := clean_read first hu.1 hfirst hc₁ fun _ => hothers.atKeyword_else hc' hend
      have hr := clean_row others k hu.2 hothers hc' hend
      rw [Outline.row_eq, Row.trees, bare_append, bare_blank, List.nil_append, bare_tree_cons]
      exact Outline.clean_itemsBy_cons hfirst.starts hs hr

end

end Printed

end SqlCaret
