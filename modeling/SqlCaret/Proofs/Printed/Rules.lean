import SqlCaret.Proofs.Printed.Ahead

/-!
# Printed — rules

What each rule of the grammar makes of printed words, one lemma for each rule, with what the
rules inside make of theirs for hypotheses.  `Clean r ks c'` says that a reading met no problem,
found trees of the kinds `ks` and ends at the cursor `c'`.
-/

namespace SqlCaret

open SqlCaret.Tree

namespace Outline

open Printed (Word Next Starts Follows)

/-- A reading that met no problem, with the kinds of what it found and where it ends. -/
structure Clean (r : Reading (List Outline)) (ks : List (Tree Kind)) (c' : Cursor) : Prop where
  value : kindsOfList Mark.kind r.value = ks
  problems : r.problems = []
  rest : r.rest = c'

/-- The reading of one outline as one of a row. -/
def one (r : Reading Outline) : Reading (List Outline) := ⟨[r.value], r.problems, r.rest⟩

/-! ### Marks taken one after the other -/

section
variable {σ : Type} {judge : σ → Cursor → Verdict σ} {s s' : σ} {c c' : Cursor} {w : Word}

/-- A word that the judge lets pass is collected. -/
theorem collect_go (h : Next c w c') (hj : judge s c = .go s') :
    c.collect judge s = (c.take.1 ++ (c'.collect judge s').1, (c'.collect judge s').2) := by
  obtain ⟨-, -, -⟩ := h
  simp only [Cursor.collect, SqlCaret.collect, hj, Cursor.take]
  rfl

/-- The last word is collected, and nothing behind it. -/
theorem collect_last (h : Next c w c') (hj : judge s c = .last) :
    c.collect judge s = (c.take.1, s, c') := by
  obtain ⟨-, -, -⟩ := h
  simp only [Cursor.collect, SqlCaret.collect, hj, Cursor.take]

theorem collect_stop (h : c.ahead = [] ∨ judge s c = .stop) :
    c.collect judge s = ([], s, c) := by
  obtain ⟨prev, ahead, index⟩ := c
  cases ahead with
  | nil => rfl
  | cons m ms =>
      have hj := h.resolve_left (List.cons_ne_nil _ _)
      simp only [Cursor.collect, SqlCaret.collect, hj]

end

/-! ### Judges -/

section
variable {c c₀ c' : Cursor} {w : Word}

/-- Only a word starts a statement. -/
theorem startsStatement_of_kind (h : c.kind 0 ≠ .word) : c.startsStatement = false := by
  rw [Cursor.startsStatement, if_pos]
  simp [h]

/-- A number goes on with a simple statement. -/
theorem judgeSimple_one (h : Next c .one c') :
    judgeSimple ({}, {}) c = .go ({}, {}) := by
  have hstart : c.startsStatement = false := startsStatement_of_kind (by rw [h.kind_zero]; decide)
  simp [judgeSimple, h.atSeparator, h.atKind, h.atKeyword, Cursor.atClosingEnd, hstart,
    Word.kind, Word.keyword?, Clauses.note, Nesting.pass, h.kind_zero, h.keyword?_zero,
    Nesting.atTop, Nesting.outsideCase]

theorem judgeSimple_semicolon (h : Next c .semicolon c') :
    judgeSimple ({}, {}) c = .last := by
  simp [judgeSimple, h.atSeparator, h.atKind, Word.kind, Nesting.atTop]

/-- A simple statement ends where one may end. -/
theorem judgeSimple_follows (h : Follows c) (hprev : Next c₀ .one c) :
    c.ahead = [] ∨ judgeSimple ({}, {}) c = .stop := by
  have hsemicolon := h.atKind_semicolon
  cases h with
  | nothing h => exact .inl h
  | separator h _ _ => exact .inr (by simp [judgeSimple, h])
  | starts h =>
      -- a `1` is before the keyword, so no clause of the statement can take it
      have hstart := h.startsStatement hprev.afterNameIntro
      have hcontinues : Clauses.continues {} c = false := by
        rcases h.keyword?_zero with hk | hk | hk | hk <;>
          simp [Clauses.continues, hk, hprev.prevIsAny, Word.keyword?]
      refine .inr ?_
      simp [judgeSimple, h.atSeparator, hsemicolon, hstart, hcontinues,
        h.atKeyword_else, h.atClosingEnd, Nesting.atTop]
  | atElse h =>
      refine .inr ?_
      simp [judgeSimple, h.atSeparator, hsemicolon, h.atKeyword, Word.keyword?, Nesting.atTop,
        Nesting.outsideCase]
  | atEnd h hc =>
      refine .inr ?_
      simp [judgeSimple, h.atSeparator, hsemicolon, h.atKeyword, Word.keyword?, Nesting.atTop,
        Nesting.outsideCase, Cursor.atClosingEnd, h.isKeyword_one, hc]

/-- Both parts of `1 = 1` go on with a condition. -/
theorem judgeCondition_go (h : Next c w c') (hw : w = .one ∨ w = .equals) :
    judgeCondition {} c = .go {} := by
  have hstart : c.startsStatement = false := by
    refine startsStatement_of_kind ?_
    rw [h.kind_zero]
    rcases hw with rfl | rfl <;> decide
  rcases hw with rfl | rfl <;>
    simp [judgeCondition, h.atSeparator, h.atKind, h.atKeyword, hstart, Word.kind,
      Word.keyword?, Nesting.pass, h.kind_zero]

/-- A condition ends where a statement begins. -/
theorem judgeCondition_starts (h : Starts c) (hprev : Next c₀ .one c) :
    judgeCondition {} c = .stop := by
  have hstart := h.startsStatement hprev.afterNameIntro
  simp [judgeCondition, h.atSeparator, hstart, Nesting.atTop]

end

/-! ### Rules -/

section
variable {c c₁ c₂ c₃ c' : Cursor} {w : Word}

/-- `PRINT` opens none of the clauses that make a statement go on over others. -/
theorem clauses_opening (h : Next c .PRINT c₁) : Clauses.opening c = {} := by
  simp [Clauses.opening, Cursor.startsModule, Cursor.isAny, h.keyword?_zero, Word.keyword?]

/-- Of the printed words only `END` could change the nesting. -/
theorem pass_word (h : Next c w c₁) (hw : w ≠ .END) : ({} : Nesting).pass c = {} := by
  cases w <;>
    first
    | exact absurd rfl hw
    | simp [Nesting.pass, h.kind_zero, h.atKeyword, Word.kind, Word.keyword?]

/-- A simple statement is `PRINT` and what is collected behind it. -/
theorem simple_eq {os : List Outline} (h : Next c .PRINT c₁)
    (h₁ : c₁.collect judgeSimple ({}, {}) = (os, ({}, {}), c')) :
    simple c = ⟨.node .statement (c.take.1 ++ os), [], c'⟩ := by
  simp only [simple, clauses_opening h, pass_word h (by decide), h.take_snd, h₁]
  rfl

/-- `PRINT 1`. -/
theorem clean_print (h : Next c .PRINT c₁) (h₁ : Next c₁ .one c') (hc' : Follows c') :
    Clean (one (simple c)) [.node .statement [.leaf .word, .leaf .number]] c' := by
  have hcollect : c₁.collect judgeSimple ({}, {}) = (c₁.take.1, ({}, {}), c') := by
    rw [collect_go h₁ (judgeSimple_one h₁), collect_stop (judgeSimple_follows hc' h₁),
      List.append_nil]
  rw [simple_eq h hcollect]
  refine ⟨?_, rfl, rfl⟩
  simp [one, h.kinds_take, h₁.kinds_take, Word.kind]

/-- `PRINT 1;`. -/
theorem clean_print_semicolon (h : Next c .PRINT c₁) (h₁ : Next c₁ .one c₂)
    (h₂ : Next c₂ .semicolon c') :
    Clean (one (simple c))
      [.node .statement [.leaf .word, .leaf .number, .leaf .semicolon]] c' := by
  have hcollect : c₁.collect judgeSimple ({}, {}) =
      (c₁.take.1 ++ c₂.take.1, ({}, {}), c') := by
    rw [collect_go h₁ (judgeSimple_one h₁), collect_last h₂ (judgeSimple_semicolon h₂)]
  rw [simple_eq h hcollect]
  refine ⟨?_, rfl, rfl⟩
  simp [one, h.kinds_take, h₁.kinds_take, h₂.kinds_take, Word.kind]

/-- `1 = 1`. -/
theorem clean_condition (owner : Owner) (h : Next c .one c₁) (h₁ : Next c₁ .equals c₂)
    (h₂ : Next c₂ .one c') (hc' : Starts c') :
    Clean (condition owner c)
      [.node .condition [.leaf .number, .leaf .operator, .leaf .number]] c' := by
  have hadmits : c.admitsCondition = true := by
    have hstart : c.startsStatement = false :=
      startsStatement_of_kind (by rw [h.kind_zero]; decide)
    simp [Cursor.admitsCondition, Cursor.admitsStatement, Cursor.atClosingEnd, h.atBatchEnd,
      h.atKind, h.atKeyword, hstart, Word.kind, Word.keyword?]
  have hcollect : c₁.collect judgeCondition {} = (c₁.take.1 ++ c₂.take.1, {}, c') := by
    rw [collect_go h₁ (judgeCondition_go h₁ (.inr rfl)),
      collect_go h₂ (judgeCondition_go h₂ (.inl rfl)),
      collect_stop (.inr (judgeCondition_starts hc' h₂)), List.append_nil]
  have hcondition : condition owner c =
      ⟨[.node .condition (c.take.1 ++ (c₁.take.1 ++ c₂.take.1))], [], c'⟩ := by
    simp only [condition, hadmits, pass_word h (by decide), h.take_snd, hcollect]
    rfl
  rw [hcondition]
  refine ⟨?_, rfl, rfl⟩
  simp [h.kinds_take, h₁.kinds_take, h₂.kinds_take, Word.kind]

variable {statement : Rule Outline} {items : Closer → Rule (List Outline)}
  {ks kc ky kn kt : List (Tree Kind)}

/-- Where a statement begins, the statement is the body. -/
theorem clean_body (owner : Owner) (hc : Starts c) (h : Clean (one (statement c)) ks c') :
    Clean (body statement owner c) ks c' := by
  have hbody : body statement owner c = one (statement c) := by
    simp only [body, hc.admitsStatement, if_true]
    rfl
  rwa [hbody]

/-- Where a statement begins, it is the next item of the row. -/
theorem clean_itemBy (hc : Starts c) (h : Clean (one (statement c)) ks c') :
    Clean (itemBy statement c) ks c' := by
  have hitem : itemBy statement c = one (statement c) := by
    simp [itemBy, one, hc.atKind, hc.atClosingEnd, hc.atKeyword_else]
  rwa [hitem]

/-- `ELSE` and a statement. -/
theorem clean_elseClause (h : Next c .ELSE c₁) (hb : Clean (body statement .elseClause c₁) ks c') :
    Clean (elseClause statement c) [.node .elseClause (.leaf .word :: ks)] c' := by
  have helse : c.atKeyword .ELSE = true := by rw [h.atKeyword]; rfl
  obtain ⟨hvalue, hproblems, hrest⟩ := hb
  simp only [elseClause, helse, if_true, h.take_snd]
  refine ⟨?_, hproblems, hrest⟩
  simp [h.kinds_take, hvalue, Word.kind]

/-- Without an `ELSE` nothing is found. -/
theorem clean_elseClause_nil (h : c.atKeyword .ELSE = false) :
    Clean (elseClause statement c) [] c := by
  simp only [elseClause, h, Bool.false_eq_true, if_false]
  exact ⟨rfl, rfl, rfl⟩

/-- `IF`, a condition, a statement and what its `ELSE` clause is. -/
theorem clean_ifStatement (h : Next c .IF c₁) (hc : Clean (condition .ifClause c₁) kc c₂)
    (hy : Clean (body statement .ifClause c₂) ky c₃) (hn : Clean (elseClause statement c₃) kn c') :
    Clean (one (ifStatement statement c))
      [.node .ifStatement (.leaf .word :: (kc ++ ky ++ kn))] c' := by
  obtain ⟨hvc, hpc, rfl⟩ := hc
  obtain ⟨hvy, hpy, rfl⟩ := hy
  obtain ⟨hvn, hpn, hrest⟩ := hn
  simp only [one, ifStatement, h.take_snd]
  refine ⟨?_, ?_, hrest⟩
  · simp [h.kinds_take, hvc, hvy, hvn, Word.kind]
  · simp [hpc, hpy, hpn]

/-- `WHILE`, a condition and a statement. -/
theorem clean_whileStatement (h : Next c .WHILE c₁)
    (hc : Clean (condition .whileClause c₁) kc c₂)
    (hb : Clean (body statement .whileClause c₂) ky c') :
    Clean (one (whileStatement statement c))
      [.node .whileStatement (.leaf .word :: (kc ++ ky))] c' := by
  obtain ⟨hvc, hpc, rfl⟩ := hc
  obtain ⟨hvb, hpb, hrest⟩ := hb
  simp only [one, whileStatement, h.take_snd]
  refine ⟨?_, ?_, hrest⟩
  · simp [h.kinds_take, hvc, hvb, Word.kind]
  · simp [hpc, hpb]

/-- `BEGIN`, statements and `END`. -/
theorem clean_block (h : Next c .BEGIN c₁) (hi : Clean (items .block c₁) ks c₂)
    (h₂ : Next c₂ .END c') (hc' : Follows c') :
    Clean (one (block items c))
      [.node .block (.leaf .word :: (ks ++ [.leaf .word]))] c' := by
  obtain ⟨hvalue, hproblems, rfl⟩ := hi
  simp only [one, block, h.take_snd, h₂.atBatchEnd, Bool.false_eq_true, if_false, h₂.take_snd,
    hc'.atKind_semicolon, Cursor.takeIf]
  refine ⟨?_, hproblems, rfl⟩
  simp [h.kinds_take, h₂.kinds_take, hvalue, Word.kind]

/-- `BEGIN TRY`, statements and `END TRY`, or the same with `CATCH`. -/
theorem clean_sectionOf {closer : Closer} (h : Next c .BEGIN c₁) (h₁ : Next c₁ w c₂)
    (hi : Clean (items closer c₂) ks c₃) {c₄ : Cursor} (h₃ : Next c₃ .END c₄)
    (h₄ : Next c₄ w c') (hc' : Follows c') (hw : w.kind = .word) :
    (sectionOf items closer c).value.2 = true ∧
      Clean ⟨(sectionOf items closer c).value.1, (sectionOf items closer c).problems,
          (sectionOf items closer c).rest⟩
        (.leaf .word :: .leaf .word :: (ks ++ [.leaf .word, .leaf .word])) c' := by
  obtain ⟨hvalue, hproblems, rfl⟩ := hi
  simp only [sectionOf, h.take_snd, h₁.take_snd, h₃.atBatchEnd, Bool.false_eq_true, if_false,
    h₃.take_snd, h₄.take_snd, hc'.atKind_semicolon, Cursor.takeIf]
  have hk₁ := h₁.kinds_take
  have hk₄ := h₄.kinds_take
  rw [hw] at hk₁ hk₄
  refine ⟨trivial, ?_, hproblems, rfl⟩
  simp [h.kinds_take, hk₁, h₃.kinds_take, hk₄, hvalue, Word.kind]

/-- A try section and a catch section. -/
theorem clean_tryCatch (ht : (sectionOf items .tryEnd c).value.2 = true)
    (htry : Clean ⟨(sectionOf items .tryEnd c).value.1, (sectionOf items .tryEnd c).problems,
      (sectionOf items .tryEnd c).rest⟩ ks c₁)
    (h₁ : Next c₁ .BEGIN c₂) (h₂ : Next c₂ .CATCH c₃)
    (hk : (sectionOf items .catchEnd c₁).value.2 = true)
    (hcatch : Clean ⟨(sectionOf items .catchEnd c₁).value.1,
      (sectionOf items .catchEnd c₁).problems, (sectionOf items .catchEnd c₁).rest⟩ kt c') :
    Clean (one (tryCatch items c)) [.node .tryCatch (ks ++ kt)] c' := by
  obtain ⟨hvt, hpt, rfl⟩ := htry
  obtain ⟨hvk, hpk, hrest⟩ := hcatch
  have hcatch : ((sectionOf items .tryEnd c).rest.atKeyword .BEGIN &&
      (sectionOf items .tryEnd c).rest.isKeyword 1 .CATCH) = true := by
    rw [h₁.isKeyword_one, h₁.atKeyword, h₂.atKeyword]
    rfl
  simp only [one, tryCatch, ht, hcatch, hk, if_true]
  refine ⟨?_, ?_, hrest⟩
  · simp [show kindsOfList Mark.kind (sectionOf items .tryEnd c).value.1 = ks from hvt,
      show kindsOfList Mark.kind _ = kt from hvk]
  · simpa using ⟨hpt, hpk⟩

/-! ### First words -/

/-- `PRINT` is taken for a simple statement. -/
theorem statementBy_print (h : Next c .PRINT c₁) :
    statementBy statement items c = simple c := by
  simp only [statementBy, h.keyword?_zero, Word.keyword?]

/-- `IF` is taken for a branch. -/
theorem statementBy_if (h : Next c .IF c₁) :
    statementBy statement items c = ifStatement statement c := by
  simp only [statementBy, h.keyword?_zero, Word.keyword?]

theorem statementBy_while (h : Next c .WHILE c₁) :
    statementBy statement items c = whileStatement statement c := by
  simp only [statementBy, h.keyword?_zero, Word.keyword?]

/-- `BEGIN TRY` is taken for a pair of sections. -/
theorem statementBy_try (h : Next c .BEGIN c₁) (h₁ : Next c₁ .TRY c₂) :
    statementBy statement items c = tryCatch items c := by
  have htry : c.isKeyword 1 .TRY = true := by
    rw [h.isKeyword_one, h₁.atKeyword]
    rfl
  simp only [statementBy, h.keyword?_zero, Word.keyword?, htry, if_true]

/-- A `BEGIN` with a statement behind it, or with an `END`, begins a block. -/
theorem statementBy_block (h : Next c .BEGIN c₁) (hc₁ : Follows c₁) :
    statementBy statement items c = block items c := by
  have htry : c.isKeyword 1 .TRY = false := by
    rw [h.isKeyword_one, hc₁.atKeyword (by decide)]
  have hcatch : c.isKeyword 1 .CATCH = false := by
    rw [h.isKeyword_one, hc₁.atKeyword (by decide)]
  have hsimple : c.isAny 1 Keyword.beginSimple = false := by
    rw [h.isAny_one, hc₁.isAny_zero (by decide)]
  simp only [statementBy, h.keyword?_zero, Word.keyword?, htry, hcatch, hsimple,
    Bool.false_eq_true, if_false]

/-! ### Rows -/

/-- At its end a row holds nothing. -/
theorem clean_itemsBy_nil {closer : Closer} (h : (c.atBatchEnd || closer.closes c) = true) :
    Clean (itemsBy statement items closer c) [] c := by
  simp only [itemsBy, h, if_true]
  exact ⟨rfl, rfl, rfl⟩

/-- Where a statement begins, a row holds it and what the row behind it holds. -/
theorem clean_itemsBy_cons {closer : Closer} (hc : Starts c)
    (hs : Clean (one (statement c)) ks c₁) (hi : Clean (items closer c₁) kt c') :
    Clean (itemsBy statement items closer c) (ks ++ kt) c' := by
  obtain ⟨hvs, hps, rfl⟩ := clean_itemBy hc hs
  obtain ⟨hvi, hpi, hrest⟩ := hi
  simp only [itemsBy, hc.atBatchEnd, hc.closes, Bool.or_false, Bool.false_eq_true, if_false]
  refine ⟨?_, ?_, hrest⟩
  · simp [hvs, hvi]
  · simp [hps, hpi]

end

end Outline

end SqlCaret
