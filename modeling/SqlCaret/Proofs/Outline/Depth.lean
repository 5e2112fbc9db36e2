import SqlCaret.Proofs.Outline.Passing
import SqlCaret.Proofs.Tree.Form

/-!
# Outline — depth

The two rules that call each other, `statement` and `items`, count down a depth.  The depth never
shows: as soon as it is twice the number of marks ahead, more of it changes nothing
(`congr_depth`), since each call of `statement` passes a mark
(`statementBy_value`) and only looks at what comes behind it.

`read` and `row` are the two rules with enough depth.  They are what the open rules
`statementBy` and `itemsBy` make of themselves (`read_eq`, `row_eq`), and what holds of a reading
is proved along these equations (`read_row_induction`).  A row only stops at the end of the batch
or at its closer (`row_stops`).
-/

namespace SqlCaret.Outline

open SqlCaret.Tree

/-! ### Progress -/

/-- Taking a mark leaves fewer ahead. -/
theorem length_take_lt {c : Cursor} (h : c.ahead ≠ []) :
    c.take.2.ahead.length < c.ahead.length := by
  unfold Cursor.take
  split
  · rename_i m ms heq
    simp [heq]
  · rename_i heq
    exact absurd heq h

/-- Inside of a batch there is a mark ahead. -/
theorem ahead_ne_nil_of_not_atBatchEnd {c : Cursor} (h : ¬ c.atBatchEnd = true) :
    c.ahead ≠ [] := by
  intro hnil
  simp [Cursor.atBatchEnd, Cursor.atEnd, hnil] at h

theorem ahead_ne_nil_of_atKeyword {c : Cursor} {k : Keyword} (h : c.atKeyword k = true) :
    c.ahead ≠ [] := by
  intro hnil
  simp [Cursor.atKeyword, Cursor.isKeyword, Cursor.keyword?, hnil] at h

theorem ahead_ne_nil_of_admitsStatement {c : Cursor} (h : c.admitsStatement = true) :
    c.ahead ≠ [] := by
  simp only [Cursor.admitsStatement, Bool.and_eq_true, Bool.not_eq_true', ← Bool.not_eq_true] at h
  exact ahead_ne_nil_of_not_atBatchEnd h.1.1.1.1

theorem ahead_ne_nil_of_admitsCondition {c : Cursor} (h : c.admitsCondition = true) :
    c.ahead ≠ [] := by
  rw [Cursor.admitsCondition, Bool.and_eq_true] at h
  exact ahead_ne_nil_of_admitsStatement h.1

theorem take_eq {c : Cursor} {m : Mark} {ms : List Mark} (h : c.ahead = m :: ms) :
    c.take = ([.leaf m], ⟨some m, ms, c.index + 1⟩) := by
  unfold Cursor.take
  rw [h]

/-- Passing a mark leaves fewer ahead. -/
theorem length_lt_of_passes {c c' : Cursor} {m : Mark} {ms : List Mark}
    (h : c.Passes (m :: ms) c') : c'.ahead.length < c.ahead.length := by
  have := h.length_eq
  rw [List.length_cons] at this
  omega

/-- The nodes that `statementBy` reads begin with the mark ahead. -/
theorem statementBy_value (statement : Rule Outline) (items : Closer → Rule (List Outline))
    {c : Cursor} {m : Mark} {ms : List Mark} (h : c.ahead = m :: ms) :
    ∃ k ts, (statementBy statement items c).value = .node k (.leaf m :: ts) ∧
      k.isItem = true := by
  have hsection : ∀ closer, ∃ ts, (sectionOf items closer c).value.1 = .leaf m :: ts := by
    intro closer
    simp only [sectionOf, take_eq h]
    split
    · exact ⟨_, rfl⟩
    · exact ⟨_, rfl⟩
  have htry : ∃ ts, (tryCatch items c).value = .node .tryCatch (.leaf m :: ts) := by
    obtain ⟨ts, hts⟩ := hsection .tryEnd
    simp only [tryCatch, hts]
    split
    · split
      · exact ⟨_, rfl⟩
      · exact ⟨_, rfl⟩
    · exact ⟨_, rfl⟩
  have hblock : ∃ ts, (block items c).value = .node .block (.leaf m :: ts) := by
    simp only [block, take_eq h]
    split
    · exact ⟨_, rfl⟩
    · exact ⟨_, rfl⟩
  have hsimple : ∃ ts, (simple c).value = .node .statement (.leaf m :: ts) := by
    simp only [simple, take_eq h]
    exact ⟨_, rfl⟩
  -- one case for each first word
  unfold statementBy
  split
  · split
    · exact ⟨_, _, htry.choose_spec, rfl⟩
    split
    · obtain ⟨ts, hts⟩ := hsection .catchEnd
      exact ⟨.error, ts, by simp [strayCatch, hts], rfl⟩
    split
    · exact ⟨_, _, hsimple.choose_spec, rfl⟩
    · exact ⟨_, _, hblock.choose_spec, rfl⟩
  · exact ⟨.ifStatement, _, by simp only [ifStatement, take_eq h]; rfl, rfl⟩
  · exact ⟨.whileStatement, _, by simp only [whileStatement, take_eq h]; rfl, rfl⟩
  · exact ⟨_, _, hsimple.choose_spec, rfl⟩

/-! ### Rules that agree on what is shorter -/

section
variable {s s' : Rule Outline} {i i' : Closer → Rule (List Outline)} {n : Nat}

theorem body_congr (hs : ∀ c : Cursor, c.ahead.length < n → s c = s' c) (owner : Owner)
    {c : Cursor} (h : c.ahead.length < n) : body s owner c = body s' owner c := by
  simp only [body, hs c h]

/-- `ELSE` depends on its statement behind the word only. -/
theorem elseClause_congr (hs : ∀ c : Cursor, c.ahead.length < n → s c = s' c) {c : Cursor}
    (h : c.ahead.length < n) : elseClause s c = elseClause s' c := by
  have hlen := c.passes_take.length_le
  simp only [elseClause, body_congr hs .elseClause (c := c.take.2) (by omega)]

/-- An `IF` depends on statements with fewer marks ahead only. -/
theorem ifStatement_congr (hs : ∀ c : Cursor, c.ahead.length < n → s c = s' c)
    (hc : Consumes s') {c : Cursor} (h : c.take.2.ahead.length < n) :
    ifStatement s c = ifStatement s' c := by
  have hcond := (consumes_condition .ifClause c.take.2).length_le
  have hbody := (consumes_body hc .ifClause (condition .ifClause c.take.2).rest).length_le
  simp only [ifStatement]
  rw [body_congr hs .ifClause (by omega), elseClause_congr hs (by omega)]

/-- A `WHILE` depends on statements with fewer marks ahead only. -/
theorem whileStatement_congr (hs : ∀ c : Cursor, c.ahead.length < n → s c = s' c) {c : Cursor}
    (h : c.take.2.ahead.length < n) : whileStatement s c = whileStatement s' c := by
  have hcond := (consumes_condition .whileClause c.take.2).length_le
  simp only [whileStatement]
  rw [body_congr hs .whileClause (by omega)]

/-- A section depends on items with fewer marks ahead only. -/
theorem sectionOf_congr (hi : ∀ k (c : Cursor), c.ahead.length < n → i k c = i' k c)
    (closer : Closer) {c : Cursor} (h : c.take.2.ahead.length < n) :
    sectionOf i closer c = sectionOf i' closer c := by
  have hlen := c.take.2.passes_take.length_le
  simp only [sectionOf, hi closer c.take.2.take.2 (by omega)]

/-- Both sections depend on items with fewer marks ahead only. -/
theorem tryCatch_congr (hi : ∀ k (c : Cursor), c.ahead.length < n → i k c = i' k c)
    (hc : ∀ k, ConsumesRow (i' k)) {c : Cursor} (h : c.ahead ≠ []) (hn : c.ahead.length ≤ n) :
    tryCatch i c = tryCatch i' c := by
  have htake := length_take_lt h
  simp only [tryCatch, sectionOf_congr hi .tryEnd (c := c) (by omega)]
  have hlen := (consumes_sectionOf hc .tryEnd c).length_le
  split
  · split
    · rename_i hbegin
      rw [Bool.and_eq_true] at hbegin
      have htake' := length_take_lt (ahead_ne_nil_of_atKeyword hbegin.1)
      rw [sectionOf_congr hi .catchEnd (by omega)]
    · rfl
  · rfl

/-- **A statement depends on what has fewer marks ahead only**, so that a count of them is enough.
-/
theorem statementBy_congr (hs : ∀ c : Cursor, c.ahead.length < n → s c = s' c)
    (hi : ∀ k (c : Cursor), c.ahead.length < n → i k c = i' k c) (hcs : Consumes s')
    (hci : ∀ k, ConsumesRow (i' k)) {c : Cursor} (h : c.ahead ≠ []) (hn : c.ahead.length ≤ n) :
    statementBy s i c = statementBy s' i' c := by
  have htake := length_take_lt h
  unfold statementBy
  rw [tryCatch_congr hi hci h hn, ifStatement_congr hs hcs (by omega),
    whileStatement_congr hs (by omega)]
  simp only [strayCatch, block, sectionOf_congr hi .catchEnd (c := c) (by omega),
    hi .block c.take.2 (by omega)]

/-- An item passes a mark if a statement does. -/
theorem length_itemBy_lt {c : Cursor} (h : c.ahead ≠ [])
    (hp : (s c).rest.ahead.length < c.ahead.length) :
    (itemBy s c).rest.ahead.length < c.ahead.length := by
  have htake := length_take_lt h
  simp only [itemBy]
  split
  · exact htake
  split
  · have := (c.take.2.passes_takeIf (c.take.2.isAny 0 [.TRY, .CATCH])).length_le
    simp only
    omega
  split
  · exact htake
  split
  · exact htake
  · exact hp

/-- A row depends on its first statement and on rows with fewer marks ahead only. -/
theorem itemsBy_congr {closer : Closer} {c : Cursor} (hs : s c = s' c)
    (hi : ∀ k (d : Cursor), d.ahead.length < c.ahead.length → i k d = i' k d)
    (hp : c.ahead ≠ [] → (s' c).rest.ahead.length < c.ahead.length) :
    itemsBy s i closer c = itemsBy s' i' closer c := by
  have hitem : itemBy s c = itemBy s' c := by simp only [itemBy, hs]
  simp only [itemsBy, hitem]
  split
  · rfl
  · rename_i hend
    rw [Bool.or_eq_true, not_or] at hend
    have hne := ahead_ne_nil_of_not_atBatchEnd hend.1
    rw [hi closer _ (length_itemBy_lt hne (hp hne))]

end

/-! ### Enough depth -/

/-- At the end of the text no depth is needed. -/
theorem statement_of_nil {c : Cursor} (h : c.ahead = []) (n : Nat) :
    statement n c = ⟨.node .statement [], [], c⟩ := by
  obtain ⟨prev, ahead, index⟩ := c
  subst h
  cases n with
  | zero => rfl
  | succ n => rfl

theorem items_of_nil {c : Cursor} (h : c.ahead = []) (n : Nat) (closer : Closer) :
    items n closer c = ⟨[], [], c⟩ := by
  cases n with
  | zero => rfl
  | succ n => simp [items, itemsBy, Cursor.atBatchEnd, Cursor.atEnd, h]

/-- A statement passes a mark as soon as it has any depth. -/
theorem length_statement_lt {c : Cursor} (h : c.ahead ≠ []) (n : Nat) :
    (statement (n + 1) c).rest.ahead.length < c.ahead.length := by
  obtain ⟨m, ms, hm⟩ := List.exists_cons_of_ne_nil h
  obtain ⟨k, ts, hv, -⟩ := statementBy_value (statement n) (items n) hm
  have hp := (consumes_statement_items (n + 1)).1 c
  rw [statement, hv, leaves_node, leavesOfList_cons, leaves_leaf] at hp
  exact length_lt_of_passes hp

/-- Twice the number of marks ahead is enough depth for both rules. -/
theorem congr_depth (l : Nat) :
    (∀ (c : Cursor) (n m : Nat), c.ahead.length ≤ l → 2 * c.ahead.length ≤ n + 1 →
      2 * c.ahead.length ≤ m + 1 → statement n c = statement m c) ∧
    (∀ (k : Closer) (c : Cursor) (n m : Nat), c.ahead.length ≤ l → 2 * c.ahead.length ≤ n →
      2 * c.ahead.length ≤ m → items n k c = items m k c) := by
  induction l with
  | zero =>
      refine ⟨fun c n m hl _ _ => ?_, fun k c n m hl _ _ => ?_⟩
      · have hnil := List.length_eq_zero_iff.mp (Nat.le_zero.mp hl)
        rw [statement_of_nil hnil, statement_of_nil hnil]
      · have hnil := List.length_eq_zero_iff.mp (Nat.le_zero.mp hl)
        rw [items_of_nil hnil, items_of_nil hnil]
  | succ l ih =>
      have hstatement : ∀ (c : Cursor) (n m : Nat), c.ahead.length ≤ l + 1 →
          2 * c.ahead.length ≤ n + 1 → 2 * c.ahead.length ≤ m + 1 →
          statement n c = statement m c := by
        intro c n m hl hn hm
        by_cases hnil : c.ahead = []
        · rw [statement_of_nil hnil, statement_of_nil hnil]
        · have hpos := List.length_pos_iff.mpr hnil
          obtain ⟨n, rfl⟩ := Nat.exists_eq_add_one.mpr (show 0 < n by omega)
          obtain ⟨m, rfl⟩ := Nat.exists_eq_add_one.mpr (show 0 < m by omega)
          have hc := consumes_statement_items m
          -- what the statement holds stands behind its first mark, which is worth two of the depth
          exact statementBy_congr (n := c.ahead.length)
            (fun d hd => ih.1 d n m (by omega) (by omega) (by omega))
            (fun k d hd => ih.2 k d n m (by omega) (by omega) (by omega)) hc.1 hc.2 hnil
            (Nat.le_refl _)
      refine ⟨hstatement, fun k c n m hl hn hm => ?_⟩
      by_cases hnil : c.ahead = []
      · rw [items_of_nil hnil, items_of_nil hnil]
      · have hpos := List.length_pos_iff.mpr hnil
        obtain ⟨n, rfl⟩ := Nat.exists_eq_add_one.mpr (show 0 < n by omega)
        obtain ⟨m, rfl⟩ := Nat.exists_eq_add_one.mpr (show 0 < m by omega)
        obtain ⟨m, rfl⟩ := Nat.exists_eq_add_one.mpr (show 0 < m by omega)
        -- the first statement of a row has the same marks ahead and one less of the depth
        exact itemsBy_congr (hstatement c n (m + 1) hl (by omega) (by omega))
          (fun k d hd => ih.2 k d n (m + 1) (by omega) (by omega) (by omega))
          (fun h => length_statement_lt h m)

/-! ### The rules without a depth -/

/-- One statement. -/
def read : Rule Outline := fun c => statement (depthFor c) c

/-- Statements up to a closer. -/
def row (closer : Closer) : Rule (List Outline) := fun c => items (depthFor c) closer c

/-- With enough depth the rule is `read`. -/
theorem statement_eq_read {c : Cursor} {n : Nat} (h : 2 * c.ahead.length ≤ n + 1) :
    statement n c = read c :=
  (congr_depth _).1 c n _ (Nat.le_refl _) h (by simp only [depthFor]; omega)

theorem items_eq_row {c : Cursor} {n : Nat} (closer : Closer) (h : 2 * c.ahead.length ≤ n) :
    items n closer c = row closer c :=
  (congr_depth _).2 closer c n _ (Nat.le_refl _) h (by simp only [depthFor]; omega)

theorem consumes_read : Consumes read := fun c => (consumes_statement_items _).1 c

theorem consumes_row (closer : Closer) : ConsumesRow (row closer) :=
  fun c => (consumes_statement_items _).2 closer c

/-- **One statement**, told by its first words. -/
theorem read_eq {c : Cursor} (h : c.ahead ≠ []) : read c = statementBy read row c := by
  refine statementBy_congr (n := c.ahead.length) (fun d hd => statement_eq_read (by omega))
    (fun k d hd => items_eq_row k (by omega)) consumes_read consumes_row h (Nat.le_refl _)

/-- A statement passes a mark, so a row of them comes to an end. -/
theorem length_read_lt {c : Cursor} (h : c.ahead ≠ []) :
    (read c).rest.ahead.length < c.ahead.length :=
  length_statement_lt h _

/-- **Statements up to a closer**: one item, and then the others. -/
theorem row_eq (closer : Closer) (c : Cursor) : row closer c = itemsBy read row closer c :=
  itemsBy_congr (statement_eq_read (by omega)) (fun k d hd => items_eq_row k (by omega))
    length_read_lt

/-- A row is at its end, or it is an item and the shorter row behind it. -/
theorem row_cases (closer : Closer) (c : Cursor) :
    (c.atBatchEnd || closer.closes c) = true ∧ row closer c = ⟨[], [], c⟩ ∨
      (c.atBatchEnd || closer.closes c) = false ∧ c.ahead ≠ [] ∧
        (itemBy read c).rest.ahead.length < c.ahead.length ∧
        row closer c =
          ⟨(itemBy read c).value ++ (row closer (itemBy read c).rest).value,
            (itemBy read c).problems ++ (row closer (itemBy read c).rest).problems,
            (row closer (itemBy read c).rest).rest⟩ := by
  rw [row_eq]
  cases hend : c.atBatchEnd || closer.closes c with
  | true => exact .inl ⟨rfl, by simp only [itemsBy, hend, if_true]⟩
  | false =>
      have hne : c.ahead ≠ [] := by
        rw [Bool.or_eq_false_iff, ← Bool.not_eq_true] at hend
        exact ahead_ne_nil_of_not_atBatchEnd hend.1
      refine .inr ⟨rfl, hne, length_itemBy_lt hne (length_read_lt hne), ?_⟩
      simp only [itemsBy, hend, Bool.false_eq_true, if_false]

/-- **Where a row stops**: at the end of the batch or at its closer. -/
theorem row_stops (closer : Closer) (c : Cursor) :
    ((row closer c).rest.atBatchEnd || closer.closes (row closer c).rest) = true := by
  induction hl : c.ahead.length using Nat.strongRecOn generalizing c with
  | ind l ih =>
      subst hl
      rcases row_cases closer c with ⟨hend, hrow⟩ | ⟨-, -, hlt, hrow⟩
      · rw [hrow]
        exact hend
      · rw [hrow]
        exact ih _ hlt _ rfl

/-- What holds of every reading of a statement and of a row is proved from what holds of the
readings behind the first mark. -/
theorem read_row_induction {S : Cursor → Prop} {I : Closer → Cursor → Prop}
    (hS : ∀ c, c.ahead ≠ [] →
      (∀ d : Cursor, d.ahead.length < c.ahead.length → d.ahead ≠ [] → S d) →
      (∀ k (d : Cursor), d.ahead.length < c.ahead.length → I k d) → S c)
    (hI : ∀ k c, (c.ahead ≠ [] → S c) →
      (∀ k (d : Cursor), d.ahead.length < c.ahead.length → I k d) → I k c) :
    (∀ c, c.ahead ≠ [] → S c) ∧ ∀ k c, I k c := by
  have key : ∀ l (c : Cursor), c.ahead.length = l → (c.ahead ≠ [] → S c) ∧ ∀ k, I k c := by
    intro l
    induction l using Nat.strongRecOn with
    | ind l ih =>
        rintro c rfl
        have hs : c.ahead ≠ [] → S c := fun hne =>
          hS c hne (fun d hd => (ih _ hd d rfl).1) (fun k d hd => (ih _ hd d rfl).2 k)
        exact ⟨hs, fun k => hI k c hs (fun k d hd => (ih _ hd d rfl).2 k)⟩
  exact ⟨fun c => (key _ c rfl).1, fun k c => (key _ c rfl).2 k⟩

end SqlCaret.Outline
