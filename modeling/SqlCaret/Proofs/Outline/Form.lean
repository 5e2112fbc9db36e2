import SqlCaret.Proofs.Outline.Depth

/-!
# Outline — form

Every outline that the grammar reads is formed (`formed_script`): its nodes hold what nodes of
their kind may hold, and each but the script and its batches begins with the mark it was read
for, so that none of them is empty.  The outline holds all marks of the script
(`leaves_script`), for the batches only end where there is nothing left (`batches_all`).
-/

namespace SqlCaret.Outline

open SqlCaret.Tree

theorem allLeaves_take (c : Cursor) : AllLeaves c.take.1 := by
  unfold Cursor.take
  split
  · simp [AllLeaves]
  · simp [AllLeaves]

theorem allLeaves_takeIf (c : Cursor) (p : Bool) : AllLeaves (c.takeIf p).1 := by
  unfold Cursor.takeIf
  split
  · exact allLeaves_take c
  · simp [AllLeaves]

/-- A run of marks is read as leaves. -/
theorem allLeaves_collect {σ : Type} (judge : σ → Cursor → Verdict σ) (s : σ) (c : Cursor) :
    AllLeaves (c.collect judge s).1 := by
  obtain ⟨prev, ahead, index⟩ := c
  simp only [Cursor.collect]
  induction ahead generalizing s prev index with
  | nil => simp [SqlCaret.collect, AllLeaves]
  | cons m ms ih =>
      simp only [SqlCaret.collect]
      split
      · simp [AllLeaves]
      · simp [AllLeaves]
      · intro t ht
        rcases List.mem_cons.mp ht with rfl | ht
        · exact ⟨_, rfl⟩
        · exact ih _ _ _ t ht

/-- Where a mark is ahead, what is taken begins with it. -/
theorem leafFirst_take_append {c : Cursor} (h : c.ahead ≠ []) (ts : List Outline) :
    LeafFirst (c.take.1 ++ ts) := by
  obtain ⟨m, ms, hm⟩ := List.exists_cons_of_ne_nil h
  rw [take_eq hm]
  exact ⟨m, ts, rfl⟩

/-- A node of leaves alone, of a kind that may hold nothing. -/
theorem formed_of_allLeaves {k : Kind} {c : Cursor} {ts : List Outline} (h : c.ahead ≠ [])
    (hk : k.holds [] = true) (ht : AllLeaves ts) : Formed (.node k (c.take.1 ++ ts)) := by
  have hall := (allLeaves_take c).append ht
  exact formed_node.mpr ⟨by rw [hall.nodeKinds_eq, hk], .inr (.inr (leafFirst_take_append h ts)),
    hall.formedList⟩

/-- A node of items, of a kind that may hold any. -/
theorem formed_of_isRow {k : Kind} {c : Cursor} {ts : List Outline} (h : c.ahead ≠ [])
    (hk : ∀ ks, k.holds ks = ks.all Kind.isItem) (ht : IsRow ts) :
    Formed (.node k (c.take.1 ++ ts)) := by
  have hrow := (allLeaves_take c).isRow.append ht
  exact formed_node.mpr ⟨by rw [hk, hrow.items], .inr (.inr (leafFirst_take_append h ts)),
    hrow.formed⟩

/-- A simple statement holds tokens alone. -/
theorem isRow_simple {c : Cursor} (h : c.ahead ≠ []) : IsRow [(simple c).value] := by
  refine .node rfl (formed_of_allLeaves h rfl ?_)
  exact allLeaves_collect judgeSimple _ _

/-- A condition is one node or none. -/
theorem condition_form (owner : Owner) (c : Cursor) :
    (nodeKinds (condition owner c).value = [] ∨
      nodeKinds (condition owner c).value = [.condition]) ∧
      FormedList (condition owner c).value := by
  simp only [condition]
  split
  · rename_i hadmits
    have hne := ahead_ne_nil_of_admitsCondition hadmits
    refine ⟨.inr rfl, ?_⟩
    rw [formedList_cons]
    exact ⟨formed_of_allLeaves hne rfl (allLeaves_collect judgeCondition _ _), formedList_nil⟩
  · exact ⟨.inl rfl, formedList_nil⟩

section
variable {statement : Rule Outline} {items : Closer → Rule (List Outline)} {n : Nat}

/-- The rule reads an item wherever fewer than `n` marks are ahead. -/
def ReadsItem (statement : Rule Outline) (n : Nat) : Prop :=
  ∀ c : Cursor, c.ahead.length < n → c.ahead ≠ [] → IsRow [(statement c).value]

/-- The rule reads items wherever fewer than `n` marks are ahead. -/
def ReadsItems (items : Closer → Rule (List Outline)) (n : Nat) : Prop :=
  ∀ k (c : Cursor), c.ahead.length < n → IsRow (items k c).value

/-- An item by itself can be the body of a branch or a loop. -/
theorem isBody_of_isRow {t : Outline} (h : IsRow [t]) : Kind.IsBody (nodeKinds [t]) := by
  cases t with
  | leaf a => exact .inl rfl
  | node k ts => exact .inr ⟨k, by simpa using h.items, rfl⟩

/-- A body is one item or none. -/
theorem body_form (hs : ReadsItem statement n) (owner : Owner) {c : Cursor}
    (h : c.ahead.length < n) :
    Kind.IsBody (nodeKinds (body statement owner c).value) ∧
      FormedList (body statement owner c).value := by
  simp only [body]
  split
  · rename_i hadmits
    have hrow := hs c h (ahead_ne_nil_of_admitsStatement hadmits)
    exact ⟨isBody_of_isRow hrow, hrow.formed⟩
  · exact ⟨.inl rfl, formedList_nil⟩

/-- There is one `ELSE` or none, and it holds a body. -/
theorem elseClause_form (hs : ReadsItem statement n) {c : Cursor} (h : c.ahead.length < n) :
    (nodeKinds (elseClause statement c).value = [] ∨
      nodeKinds (elseClause statement c).value = [.elseClause]) ∧
      FormedList (elseClause statement c).value := by
  simp only [elseClause]
  split
  · rename_i helse
    have hne := ahead_ne_nil_of_atKeyword helse
    have hlen := c.passes_take.length_le
    obtain ⟨hkinds, hformed⟩ := body_form hs .elseClause (c := c.take.2) (by omega)
    refine ⟨.inr rfl, ?_⟩
    rw [formedList_cons, formed_node, nodeKinds_append, (allLeaves_take c).nodeKinds_eq,
      List.nil_append, formedList_append]
    exact ⟨⟨Kind.holds_elseClause hkinds, .inr (.inr (leafFirst_take_append hne _)),
      (allLeaves_take c).formedList, hformed⟩, formedList_nil⟩
  · exact ⟨.inl rfl, formedList_nil⟩

/-- An `IF` holds a condition, a body and an `ELSE`. -/
theorem isRow_ifStatement (hs : ReadsItem statement n) {c : Cursor} (h : c.ahead ≠ [])
    (hn : c.ahead.length ≤ n) (hc : Consumes statement) :
    IsRow [(ifStatement statement c).value] := by
  have htake := length_take_lt h
  have hcond := (consumes_condition .ifClause c.take.2).length_le
  have hbody := (consumes_body hc .ifClause (condition .ifClause c.take.2).rest).length_le
  obtain ⟨kc, fc⟩ := condition_form .ifClause c.take.2
  obtain ⟨ky, fy⟩ := body_form hs .ifClause (c := (condition .ifClause c.take.2).rest) (by omega)
  obtain ⟨kn, fn⟩ := elseClause_form hs
    (c := (body statement .ifClause (condition .ifClause c.take.2).rest).rest) (by omega)
  refine .node rfl (formed_node.mpr ⟨?_, .inr (.inr ?_), ?_⟩)
  · simpa [(allLeaves_take c).nodeKinds_eq] using Kind.holds_ifStatement kc ky kn
  · simp only [List.append_assoc]
    exact leafFirst_take_append h _
  · simp only [formedList_append]
    exact ⟨⟨⟨(allLeaves_take c).formedList, fc⟩, fy⟩, fn⟩

/-- A `WHILE` holds a condition and a body. -/
theorem isRow_whileStatement (hs : ReadsItem statement n) {c : Cursor} (h : c.ahead ≠ [])
    (hn : c.ahead.length ≤ n) : IsRow [(whileStatement statement c).value] := by
  have htake := length_take_lt h
  have hcond := (consumes_condition .whileClause c.take.2).length_le
  obtain ⟨kc, fc⟩ := condition_form .whileClause c.take.2
  obtain ⟨kb, fb⟩ :=
    body_form hs .whileClause (c := (condition .whileClause c.take.2).rest) (by omega)
  refine .node rfl (formed_node.mpr ⟨?_, .inr (.inr ?_), ?_⟩)
  · simpa [(allLeaves_take c).nodeKinds_eq] using Kind.holds_whileStatement kc kb
  · simp only [List.append_assoc]
    exact leafFirst_take_append h _
  · simp only [formedList_append]
    exact ⟨⟨(allLeaves_take c).formedList, fc⟩, fb⟩

/-- A block holds items. -/
theorem isRow_block (hi : ReadsItems items n) {c : Cursor} (h : c.ahead ≠ [])
    (hn : c.ahead.length ≤ n) : IsRow [(block items c).value] := by
  have htake := length_take_lt h
  have hinner := hi .block c.take.2 (by omega)
  simp only [block]
  split
  · exact .node rfl (formed_of_isRow h (fun _ => rfl) hinner)
  · refine .node rfl ?_
    simp only [List.append_assoc]
    exact formed_of_isRow h (fun _ => rfl) (hinner.append
      ((allLeaves_take _).append (allLeaves_takeIf _ _)).isRow)

/-- A section is its first mark and then items. -/
theorem sectionOf_form (hi : ReadsItems items n) (closer : Closer) {c : Cursor}
    (h : c.ahead ≠ []) (hn : c.ahead.length ≤ n) :
    ∃ ts, (sectionOf items closer c).value.1 = c.take.1 ++ ts ∧ IsRow ts := by
  have htake := length_take_lt h
  have htake₂ := c.take.2.passes_take.length_le
  have hinner := (allLeaves_take c.take.2).isRow.append
    (hi closer c.take.2.take.2 (by omega))
  simp only [sectionOf]
  split
  · exact ⟨_, by rw [List.append_assoc], hinner⟩
  · refine ⟨_, by simp only [List.append_assoc]; rfl, ?_⟩
    have hclosing : ∀ c' : Cursor, IsRow (c'.take.1 ++ (c'.take.2.take.1 ++
        (c'.take.2.take.2.takeIf (c'.take.2.take.2.atKind .semicolon)).1)) := fun c' =>
      ((allLeaves_take c').append
        ((allLeaves_take _).append (allLeaves_takeIf _ _))).isRow
    simpa only [List.append_assoc] using hinner.append (hclosing _)

/-- Both sections hold items, with nothing but tokens between them. -/
theorem isRow_tryCatch (hi : ReadsItems items n) {c : Cursor} (h : c.ahead ≠ [])
    (hn : c.ahead.length ≤ n) (hc : ∀ k, ConsumesRow (items k)) :
    IsRow [(tryCatch items c).value] := by
  obtain ⟨ts, hts, hrow⟩ := sectionOf_form hi .tryEnd h hn
  have hlen := (consumes_sectionOf hc .tryEnd c).length_le
  simp only [tryCatch, hts]
  split
  · split
    · rename_i hbegin
      rw [Bool.and_eq_true] at hbegin
      have hne := ahead_ne_nil_of_atKeyword hbegin.1
      obtain ⟨us, hus, hrow₂⟩ := sectionOf_form hi .catchEnd hne (by omega)
      refine .node rfl ?_
      rw [hus, List.append_assoc]
      exact formed_of_isRow h (fun _ => rfl) (hrow.append ((allLeaves_take _).isRow.append hrow₂))
    · exact .node rfl (formed_of_isRow h (fun _ => rfl) hrow)
  · exact .node rfl (formed_of_isRow h (fun _ => rfl) hrow)

theorem isRow_strayCatch (hi : ReadsItems items n) {c : Cursor} (h : c.ahead ≠ [])
    (hn : c.ahead.length ≤ n) : IsRow [(strayCatch items c).value] := by
  obtain ⟨ts, hts, hrow⟩ := sectionOf_form hi .catchEnd h hn
  simp only [strayCatch, hts]
  exact .node rfl (formed_of_isRow h (fun _ => rfl) hrow)

/-- The first word decides which node is read. -/
theorem isRow_statementBy (hs : ReadsItem statement n) (hi : ReadsItems items n) {c : Cursor}
    (h : c.ahead ≠ []) (hn : c.ahead.length ≤ n) (hcs : Consumes statement)
    (hci : ∀ k, ConsumesRow (items k)) : IsRow [(statementBy statement items c).value] := by
  unfold statementBy
  split
  · split
    · exact isRow_tryCatch hi h hn hci
    split
    · exact isRow_strayCatch hi h hn
    split
    · exact isRow_simple h
    · exact isRow_block hi h hn
  · exact isRow_ifStatement hs h hn hcs
  · exact isRow_whileStatement hs h hn
  · exact isRow_simple h

/-- An item can stand among statements. -/
theorem isRow_itemBy {c : Cursor} (h : c.ahead ≠ []) (hs : IsRow [(statement c).value]) :
    IsRow (itemBy statement c).value := by
  have herror : ∀ {ts}, AllLeaves ts → IsRow [Tree.node .error (c.take.1 ++ ts)] := fun ht =>
    .node rfl (formed_of_allLeaves h rfl ht)
  have hnil : IsRow [Tree.node .error c.take.1] := by
    simpa using @herror [] (by simp [AllLeaves])
  simp only [itemBy]
  split
  · exact (allLeaves_take c).isRow
  split
  · exact herror (allLeaves_takeIf _ _)
  split
  · exact hnil
  split
  · exact hnil
  · exact hs

end

/-- What both recursive rules read stands among statements. -/
theorem isRow_read_row :
    (∀ c : Cursor, c.ahead ≠ [] → IsRow [(read c).value]) ∧
      ∀ k (c : Cursor), IsRow (row k c).value := by
  refine read_row_induction (S := fun c => IsRow [(read c).value])
    (I := fun k c => IsRow (row k c).value) ?_ ?_
  · intro c h hs hi
    rw [read_eq h]
    exact isRow_statementBy hs hi h (Nat.le_refl _) consumes_read consumes_row
  · intro k c hs hi
    rcases row_cases k c with ⟨-, hrow⟩ | ⟨-, hne, hlt, hrow⟩
    · rw [hrow]
      exact .nil
    · rw [hrow]
      exact (isRow_itemBy hne (hs hne)).append (hi k _ hlt)

/-! ### Scripts -/

/-- **Every batch is formed.** -/
theorem formed_batch (c : Cursor) : Formed (batch c).value := by
  have hrow := isRow_read_row.2 .never c
  exact formed_node.mpr ⟨hrow.items, .inr (.inl rfl), hrow.formed⟩

/-- A separator holds tokens alone. -/
theorem formed_separator {c : Cursor} (h : c.ahead ≠ []) : Formed (separator c).value :=
  formed_of_allLeaves h rfl (allLeaves_takeIf _ _)

theorem ahead_ne_nil_of_atSeparator {c : Cursor} (h : c.atSeparator = true) : c.ahead ≠ [] := by
  intro hnil
  simp [Cursor.atSeparator, Cursor.spellsSeparator, hnil] at h

/-- A batch stops in front of a separator line or at the end. -/
theorem batch_stops (c : Cursor) :
    (batch c).rest.atSeparator = true ∨ (batch c).rest.ahead = [] := by
  have h : ((batch c).rest.atBatchEnd || Closer.never.closes (batch c).rest) = true :=
    row_stops .never c
  simpa [Closer.closes, Cursor.atBatchEnd, Cursor.atEnd, or_comm] using h

/-- **Batches and separators take turns to the end of the script.** -/
theorem batches_all {count : Nat} {c : Cursor} (h : c.ahead.length < count) :
    Kind.alternate (nodeKinds (batches count c).value) = true ∧
      FormedList (batches count c).value ∧ (batches count c).rest.ahead = [] := by
  induction count generalizing c with
  | zero => omega
  | succ n ih =>
      have hbatch := (consumes_batch c).length_le
      simp only [batches]
      split
      · rename_i hsep
        have hne := ahead_ne_nil_of_atSeparator hsep
        -- the separator passes a mark, so the count is enough for the batches behind it
        have hline : (separator (batch c).rest).rest.ahead.length <
            (batch c).rest.ahead.length := by
          have htake := length_take_lt hne
          have := ((batch c).rest.take.2.passes_takeIf ((batch c).rest.take.2.atKind .number &&
            !(batch c).rest.take.2.afterBreak 0)).length_le
          simp only [separator]
          omega
        obtain ⟨hkinds, hformed, hrest⟩ := ih (c := (separator (batch c).rest).rest) (by omega)
        refine ⟨?_, ?_, hrest⟩
        · simpa [batch, separator, Kind.alternate] using hkinds
        · rw [formedList_cons, formedList_cons]
          exact ⟨formed_batch c, formed_separator hne, hformed⟩
      · rename_i hsep
        refine ⟨rfl, by simpa using formed_batch c, ?_⟩
        exact (batch_stops c).resolve_left hsep

/-- **The outline of a script is formed.** -/
theorem formed_script (c : Cursor) : Formed (script c).value := by
  obtain ⟨hkinds, hformed, -⟩ := batches_all (Nat.lt_succ_self c.ahead.length)
  exact formed_node.mpr ⟨hkinds, .inl rfl, hformed⟩

/-- **The outline of a script holds all of its marks.** -/
theorem leaves_script (c : Cursor) : leaves (script c).value = c.ahead := by
  have h := (consumes_script c).ahead
  have hrest : (script c).rest.ahead = [] :=
    (batches_all (Nat.lt_succ_self c.ahead.length)).2.2
  rw [hrest, List.append_nil] at h
  exact h.symm

end SqlCaret.Outline
