import SqlCaret.Syntax.Outline.Script

/-!
# Outline — passing marks

`c.Passes ms c'` says that `c'` is where a cursor `c` comes to by passing the marks `ms`.  Every
rule of the grammar passes exactly the marks that its reading holds, in order (`Consumes`): it
neither leaves one out nor takes one twice, whatever is ahead and however deep it may go.
-/

namespace SqlCaret

open SqlCaret.Tree

namespace Cursor

/-- `c'` stands behind the marks `ms`, which are the next ones ahead of `c`. -/
structure Passes (c : Cursor) (ms : List Mark) (c' : Cursor) : Prop where
  ahead : c.ahead = ms ++ c'.ahead
  index : c'.index = c.index + ms.length
  prev : c'.prev = ms.getLast?.or c.prev

namespace Passes

theorem refl (c : Cursor) : c.Passes [] c := ⟨rfl, rfl, rfl⟩

/-- What two rules pass one after the other is the marks of the first and then of the second. -/
theorem trans {c c₁ c₂ : Cursor} {ms ns : List Mark} (h₁ : c.Passes ms c₁)
    (h₂ : c₁.Passes ns c₂) : c.Passes (ms ++ ns) c₂ where
  ahead := by rw [h₁.ahead, h₂.ahead, List.append_assoc]
  index := by rw [h₂.index, h₁.index, List.length_append, Nat.add_assoc]
  prev := by rw [h₂.prev, h₁.prev, List.getLast?_append, Option.or_assoc]

/-- None of the marks ahead gets lost on the way. -/
theorem length_eq {c c' : Cursor} {ms : List Mark} (h : c.Passes ms c') :
    c.ahead.length = ms.length + c'.ahead.length := by
  rw [h.ahead, List.length_append]

/-- A cursor never goes back, so a rule that asks how far it got can rely on the count. -/
theorem length_le {c c' : Cursor} {ms : List Mark} (h : c.Passes ms c') :
    c'.ahead.length ≤ c.ahead.length := by
  have := h.length_eq
  omega

end Passes

/-- The next mark is passed, if there is one; at the end the cursor stays. -/
theorem passes_take (c : Cursor) : c.Passes (leavesOfList c.take.1) c.take.2 := by
  unfold take
  split
  · rename_i m ms h
    exact ⟨by simp [h], rfl, rfl⟩
  · exact .refl c

theorem passes_takeIf (c : Cursor) (p : Bool) :
    c.Passes (leavesOfList (c.takeIf p).1) (c.takeIf p).2 := by
  unfold takeIf
  split
  · exact passes_take c
  · exact .refl c

/-- A run of marks is passed up to where the judge stops it, whatever the judge keeps in mind. -/
theorem passes_collect {σ : Type} (judge : σ → Cursor → Verdict σ) (s : σ) (c : Cursor) :
    c.Passes (leavesOfList (c.collect judge s).1) (c.collect judge s).2.2 := by
  obtain ⟨prev, ahead, index⟩ := c
  simp only [Cursor.collect]
  induction ahead generalizing s prev index with
  | nil => exact .refl _
  | cons m ms ih =>
      have hm : Passes ⟨prev, m :: ms, index⟩ [m] ⟨some m, ms, index + 1⟩ := ⟨rfl, rfl, rfl⟩
      simp only [SqlCaret.collect]
      split
      · exact .refl _
      · simpa using hm
      · simpa using hm.trans (ih _ _ _)

end Cursor

namespace Outline

/-- The rule passes the marks of the outline that it reads. -/
def Consumes (rule : Rule Outline) : Prop :=
  ∀ c : Cursor, c.Passes (leaves (rule c).value) (rule c).rest

/-- The rule passes the marks of the outlines that it reads. -/
def ConsumesRow (rule : Rule (List Outline)) : Prop :=
  ∀ c : Cursor, c.Passes (leavesOfList (rule c).value) (rule c).rest

/-- A statement that nothing is nested in: its first word and what the judge lets follow. -/
theorem consumes_simple : Consumes simple := by
  intro c
  have h := (c.passes_take).trans
    (c.take.2.passes_collect judgeSimple (Clauses.opening c, ({} : Nesting).pass c))
  simpa [simple] using h

/-- A condition of `IF` or `WHILE`, also one that is missing. -/
theorem consumes_condition (owner : Owner) : ConsumesRow (condition owner) := by
  intro c
  simp only [condition]
  split
  · have h := (c.passes_take).trans
      (c.take.2.passes_collect judgeCondition (({} : Nesting).pass c))
    simpa using h
  · exact .refl c

section
variable {statement : Rule Outline} {items : Closer → Rule (List Outline)}

/-- The statement of a branch or a loop, also one that is missing. -/
theorem consumes_body (hs : Consumes statement) (owner : Owner) :
    ConsumesRow (body statement owner) := by
  intro c
  simp only [body]
  split
  · simpa using hs c
  · exact .refl c

/-- `BEGIN`, the items and `END` with its semicolon, or no `END` when the text ends first. -/
theorem consumes_block (hi : ∀ k, ConsumesRow (items k)) : Consumes (block items) := by
  intro c
  have h := (c.passes_take).trans (hi .block c.take.2)
  simp only [block]
  split
  · simpa using h
  · have h₁ := h.trans (Cursor.passes_take _)
    simpa using h₁.trans (Cursor.passes_takeIf _ _)

/-- Both words of the opening, the items, and both words of the closing if they are there. -/
theorem consumes_sectionOf (hi : ∀ k, ConsumesRow (items k)) (closer : Closer) (c : Cursor) :
    c.Passes (leavesOfList (sectionOf items closer c).value.1) (sectionOf items closer c).rest := by
  have h := ((c.passes_take).trans (Cursor.passes_take _)).trans (hi closer c.take.2.take.2)
  simp only [sectionOf]
  split
  · simpa using h
  · have h₁ := (h.trans (Cursor.passes_take _)).trans (Cursor.passes_take _)
    simpa using h₁.trans (Cursor.passes_takeIf _ _)

/-- The section of `TRY`, and that of `CATCH` if one follows. -/
theorem consumes_tryCatch (hi : ∀ k, ConsumesRow (items k)) : Consumes (tryCatch items) := by
  intro c
  have h := consumes_sectionOf hi .tryEnd c
  simp only [tryCatch]
  split
  · split
    · simpa using h.trans (consumes_sectionOf hi .catchEnd _)
    · simpa using h
  · simpa using h

/-- A section of `CATCH` with no `TRY` in front of it. -/
theorem consumes_strayCatch (hi : ∀ k, ConsumesRow (items k)) :
    Consumes (strayCatch items) := by
  intro c
  simpa [strayCatch] using consumes_sectionOf hi .catchEnd c

/-- `ELSE` and its statement, or nothing where there is no `ELSE`. -/
theorem consumes_elseClause (hs : Consumes statement) : ConsumesRow (elseClause statement) := by
  intro c
  simp only [elseClause]
  split
  · simpa using (c.passes_take).trans (consumes_body hs .elseClause _)
  · exact .refl c

/-- `IF`, its condition, its statement and what hangs on `ELSE`. -/
theorem consumes_ifStatement (hs : Consumes statement) : Consumes (ifStatement statement) := by
  intro c
  have h₁ := (c.passes_take).trans (consumes_condition .ifClause _)
  have h₂ := h₁.trans (consumes_body hs .ifClause _)
  simpa [ifStatement] using h₂.trans (consumes_elseClause hs _)

/-- `WHILE`, its condition and its statement. -/
theorem consumes_whileStatement (hs : Consumes statement) :
    Consumes (whileStatement statement) := by
  intro c
  have h₁ := (c.passes_take).trans (consumes_condition .whileClause _)
  simpa [whileStatement] using h₁.trans (consumes_body hs .whileClause _)

/-- Whatever the first word makes of a statement, if what it holds consumes what it reads. -/
theorem consumes_statementBy (hs : Consumes statement) (hi : ∀ k, ConsumesRow (items k)) :
    Consumes (statementBy statement items) := by
  intro c
  unfold statementBy
  split
  · split
    · exact consumes_tryCatch hi c
    · split
      · exact consumes_strayCatch hi c
      · split
        · exact consumes_simple c
        · exact consumes_block hi c
  · exact consumes_ifStatement hs c
  · exact consumes_whileStatement hs c
  · exact consumes_simple c

/-- One item of a list: a token that belongs to no statement, or a statement. -/
theorem consumes_itemBy (hs : Consumes statement) : ConsumesRow (itemBy statement) := by
  intro c
  simp only [itemBy]
  split
  · exact c.passes_take
  split
  · simpa using (c.passes_take).trans (Cursor.passes_takeIf _ _)
  split
  · simpa using c.passes_take
  split
  · simpa using c.passes_take
  · simpa using hs c

/-- One item and those behind it, up to what closes the list. -/
theorem consumes_itemsBy (hs : Consumes statement) (hi : ∀ k, ConsumesRow (items k))
    (closer : Closer) : ConsumesRow (itemsBy statement items closer) := by
  intro c
  simp only [itemsBy]
  split
  · exact .refl c
  · simpa using (consumes_itemBy hs c).trans (hi closer _)

end

/-- Both recursive rules consume what they read, at every depth. -/
theorem consumes_statement_items (depth : Nat) :
    Consumes (statement depth) ∧ ∀ k, ConsumesRow (items depth k) := by
  induction depth with
  | zero => exact ⟨fun c => by simpa [statement] using Cursor.Passes.refl c,
      fun k c => by simpa [items] using Cursor.Passes.refl c⟩
  | succ n ih => exact ⟨consumes_statementBy ih.1 ih.2, consumes_itemsBy ih.1 ih.2⟩

/-- The separator itself and a semicolon behind it. -/
theorem consumes_separator : Consumes separator := by
  intro c
  simpa [separator] using (c.passes_take).trans (Cursor.passes_takeIf _ _)

theorem consumes_batch : Consumes batch := by
  intro c
  simpa [batch] using (consumes_statement_items (depthFor c)).2 .never c

/-- The batches of a script and the separators between them, however many there are. -/
theorem consumes_batches (count : Nat) : ConsumesRow (batches count) := by
  induction count with
  | zero => exact fun c => by simpa [batches] using Cursor.Passes.refl c
  | succ n ih =>
      intro c
      simp only [batches]
      split
      · simpa using ((consumes_batch c).trans (consumes_separator _)).trans (ih _)
      · simpa using consumes_batch c

/-- **The whole script passes every mark that it reads.** -/
theorem consumes_script : Consumes script := by
  intro c
  simpa [script] using consumes_batches _ c

end Outline

end SqlCaret
