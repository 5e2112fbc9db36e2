import SqlCaret.Proofs.Outline.Parentheses

/-!
# Outline — whole nodes

The grammar meets a problem where a node is not whole, and nowhere else: a reading has no problems
just when all of its nodes are whole (`whole_read_row`, `whole_script`).

For blocks and sections this is a matter of the words right inside.  Among the statements of a row
there are no words but only semicolons (`quiet_row`), so the words that open a section, and those
that close it if it is closed, are all that there are (`words_sectionOf`).
-/

namespace SqlCaret

open SqlCaret.Tree

namespace Outline

/-! ### Words right inside -/

/-- The keywords that the tokens right inside spell. -/
def words (ts : List Outline) : List (Option Keyword) :=
  (directSigns Mark.sign? ts).map (·.keyword)

@[simp] theorem words_append (ts us : List Outline) : words (ts ++ us) = words ts ++ words us := by
  simp [words]

@[simp] theorem words_node (k : Kind) (ts : List Outline) : words [.node k ts] = [] := by
  simp [words]

/-- No token right inside spells a keyword. -/
def Quiet (ts : List Outline) : Prop := ∀ w ∈ words ts, w = none

theorem Quiet.append {ts us : List Outline} (h : Quiet ts) (h' : Quiet us) : Quiet (ts ++ us) := by
  intro w hw
  rw [words_append, List.mem_append] at hw
  exact hw.elim (h w) (h' w)

theorem quiet_nil : Quiet [] := by simp [Quiet, words]

/-- The token that is taken is the one that was seen to be a keyword. -/
theorem words_take {c : Cursor} {k : Keyword} (h : c.keyword? 0 = some k) :
    words c.take.1 = [some k] := by
  obtain ⟨prev, ahead, index⟩ := c
  cases ahead with
  | nil => cases h
  | cons m ms =>
      have hm : m.keyword = some k := h
      simp [words, Cursor.take, Mark.sign?, hm]

end Outline

/-- Only words spell keywords. -/
def Mark.Proper (m : Mark) : Prop := m.kind ≠ .word → m.keyword = none

namespace Cursor

/-- Only words spell keywords ahead. -/
def Proper (c : Cursor) : Prop := ∀ m ∈ c.ahead, m.Proper

/-- Marks that are passed leave proper marks ahead. -/
theorem Passes.proper {c c' : Cursor} {ms : List Mark} (h : c.Passes ms c') (hc : c.Proper) :
    c'.Proper := by
  intro m hm
  refine hc m ?_
  rw [h.ahead]
  exact List.mem_append_right _ hm

end Cursor

namespace Outline

/-- A semicolon spells no keyword. -/
theorem quiet_takeIf_semicolon {c : Cursor} (hc : c.Proper) :
    Quiet (c.takeIf (c.atKind .semicolon)).1 := by
  unfold Cursor.takeIf
  split
  · rename_i hsemicolon
    obtain ⟨prev, ahead, index⟩ := c
    cases ahead with
    | nil => exact quiet_nil
    | cons m ms =>
        have hkind : m.kind = .semicolon := by simpa [Cursor.atKind, Cursor.kind] using hsemicolon
        have hm : m.keyword = none := hc m List.mem_cons_self (by rw [hkind]; decide)
        simp [Quiet, words, Cursor.take, Mark.sign?, hm]
  · exact quiet_nil

/-- An item is a node or a semicolon, so its words are not right inside the row. -/
theorem quiet_itemBy {statement : Rule Outline} {c : Cursor} (hc : c.Proper)
    (hs : ∃ k ts, (statement c).value = .node k ts) : Quiet (itemBy statement c).value := by
  have hnode : ∀ k ts, Quiet [Tree.node k ts] := fun k ts => by simp [Quiet]
  simp only [itemBy]
  split
  · rename_i hsemicolon
    have h := quiet_takeIf_semicolon hc
    rwa [hsemicolon] at h
  split
  · exact hnode _ _
  split
  · exact hnode _ _
  split
  · exact hnode _ _
  · obtain ⟨k, ts, hvalue⟩ := hs
    simp only [hvalue]
    exact hnode _ _

/-- With a mark ahead, a statement or an error node is read. -/
theorem read_value {c : Cursor} (h : c.ahead ≠ []) :
    ∃ k ts, (read c).value = .node k ts ∧ k.isItem = true := by
  obtain ⟨m, ms, hm⟩ := List.exists_cons_of_ne_nil h
  obtain ⟨k, ts, hvalue, hk⟩ := statementBy_value read row hm
  exact ⟨k, _, by rw [read_eq h, hvalue], hk⟩

/-- **Among statements there are no words** right inside a row. -/
theorem quiet_row (k : Closer) {c : Cursor} (hc : c.Proper) : Quiet (row k c).value := by
  induction hl : c.ahead.length using Nat.strongRecOn generalizing c with
  | ind l ih =>
      subst hl
      rcases row_cases k c with ⟨-, hrow⟩ | ⟨-, hne, hlt, hrow⟩
      · rw [hrow]
        exact quiet_nil
      · obtain ⟨k', ts, hvalue, -⟩ := read_value hne
        rw [hrow]
        exact (quiet_itemBy hc ⟨k', ts, hvalue⟩).append
          (ih _ hlt ((consumes_itemBy consumes_read c).proper hc) rfl)

/-! ### Blocks and sections -/

theorem keyword?_of_isKeyword {c : Cursor} {n : Nat} {k : Keyword} (h : c.isKeyword n k = true) :
    c.keyword? n = some k := by
  simpa [Cursor.isKeyword] using h

/-- The second keyword ahead is the first behind the mark that is taken. -/
theorem keyword?_take {c : Cursor} {k : Keyword} (h : c.keyword? 1 = some k) :
    c.take.2.keyword? 0 = some k := by
  obtain ⟨prev, ahead, index⟩ := c
  cases ahead with
  | nil => cases h
  | cons m ms => exact h

/-- The words that open a section, those that close it if it is closed, and no others. -/
theorem words_sectionOf {closer : Closer} {w : Keyword}
    (hcloser : ∀ c : Cursor, closer.closes c = true → c.keyword? 0 = some .END ∧
      c.keyword? 1 = some w) {c : Cursor} (hc : c.Proper) (hbegin : c.keyword? 0 = some .BEGIN)
    (hw : c.keyword? 1 = some w) :
    ∃ inner behind, (∀ x ∈ inner ++ behind, x = none) ∧
      words (sectionOf row closer c).value.1 =
        [some .BEGIN, some w] ++ inner ++
          if (sectionOf row closer c).value.2 then [some .END, some w] ++ behind else [] := by
  have hc₁ := c.passes_take.proper hc
  have hc₂ := c.take.2.passes_take.proper hc₁
  have hinner := quiet_row closer hc₂
  have hrest := (consumes_row closer c.take.2.take.2).proper hc₂
  have hopening := words_take hbegin
  have hopening' := words_take (keyword?_take hw)
  simp only [sectionOf]
  split
  · refine ⟨words (row closer c.take.2.take.2).value, [], ?_, ?_⟩
    · rw [List.append_nil]
      exact hinner
    · simp [hopening, hopening']
  · rename_i hend
    -- the items end at what closes the section or at the end of the batch, which is ruled out here
    have hcloses := row_stops closer c.take.2.take.2
    rw [Bool.or_eq_true] at hcloses
    obtain ⟨hEND, hword⟩ := hcloser _ (hcloses.resolve_left hend)
    have hclosing := words_take hEND
    have hclosing' := words_take (keyword?_take hword)
    have hsemicolon := quiet_takeIf_semicolon
      ((Cursor.passes_take _).proper ((Cursor.passes_take _).proper hrest))
    refine ⟨words (row closer c.take.2.take.2).value, words (Cursor.takeIf _ _).1,
      fun x hx => (List.mem_append.mp hx).elim (hinner x) (hsemicolon x), ?_⟩
    simp only [words_append, hopening, hopening', hclosing, hclosing', if_true, List.append_assoc,
      List.cons_append, List.nil_append]

theorem count_of_forall_none {ws : List (Option Keyword)} (h : ∀ w ∈ ws, w = none) (k : Keyword) :
    ws.count (some k) = 0 := by
  rw [List.count_eq_zero]
  exact fun hmem => nomatch h _ hmem

/-- A section has an `END` right inside just when it is closed. -/
theorem count_end_sectionOf {closer : Closer} {w : Keyword}
    (hcloser : ∀ c : Cursor, closer.closes c = true → c.keyword? 0 = some .END ∧
      c.keyword? 1 = some w) (hne : w ≠ .END) {c : Cursor} (hc : c.Proper)
    (hbegin : c.keyword? 0 = some .BEGIN) (hw : c.keyword? 1 = some w) :
    (words (sectionOf row closer c).value.1).count (some .END) =
      if (sectionOf row closer c).value.2 then 1 else 0 := by
  obtain ⟨inner, behind, hnone, hwords⟩ := words_sectionOf hcloser hc hbegin hw
  have hcount := count_of_forall_none hnone .END
  rw [List.count_append, Nat.add_eq_zero_iff] at hcount
  rw [hwords]
  split
  · simp [List.count_append, hcount, hne]
  · simp [hcount, hne]

/-- A row meets a problem where a node is not whole. -/
def WholeRow (k : Closer) (c : Cursor) : Prop :=
  (row k c).problems = [] ↔ WholeList Mark.sign? (row k c).value

/-- A statement meets a problem where a node is not whole. -/
def WholeRead (c : Cursor) : Prop := (read c).problems = [] ↔ Whole Mark.sign? (read c).value

/-- Rows that have fewer marks ahead than `c`. -/
def WholeRows (c : Cursor) : Prop :=
  ∀ k (d : Cursor), d.ahead.length < c.ahead.length → d.Proper → WholeRow k d

/-- Statements that have fewer marks ahead than `c`. -/
def WholeReads (c : Cursor) : Prop :=
  ∀ d : Cursor, d.ahead.length < c.ahead.length → d.ahead ≠ [] → d.Proper → WholeRead d

/-- A block has no problem just when `END` closes it, and what is inside has none. -/
theorem whole_block {c : Cursor} (hi : WholeRows c) (hc : c.Proper) (h : c.ahead ≠ [])
    (hbegin : c.keyword? 0 = some .BEGIN) :
    (block row c).problems = [] ↔ Whole Mark.sign? (block row c).value := by
  have hc₁ := c.passes_take.proper hc
  have hrow := hi .block c.take.2 (length_take_lt h) hc₁
  have hquiet := quiet_row .block hc₁
  have hend_iff : ∀ ts : List Outline,
      Kind.IsWhole .block (content Mark.sign? ts) ↔ some .END ∈ words ts := fun ts => by
    simp [Kind.IsWhole, content, words]
  simp only [block]
  split
  · rw [whole_node, hend_iff, words_append, words_take hbegin]
    have hnot : some Keyword.END ∉ words (row .block c.take.2).value :=
      fun hmem => absurd (hquiet _ hmem) (by simp)
    simp [hnot]
  · rename_i hend
    have hcloses := row_stops .block c.take.2
    rw [Bool.or_eq_true] at hcloses
    have hEND : (row .block c.take.2).rest.keyword? 0 = some .END := by
      have hblock := hcloses.resolve_left hend
      simp only [Closer.closes, Cursor.closesBlock, Bool.and_eq_true] at hblock
      exact keyword?_of_isKeyword hblock.1
    rw [whole_node, hend_iff, wholeList_append_leaves (allLeaves_takeIf _ _),
      wholeList_append_leaves (allLeaves_take _), wholeList_leaves_append (allLeaves_take _),
      words_append, words_append, words_take hEND]
    simpa [WholeRow] using hrow

/-- A section has no problem just when both of its closing words are there. -/
theorem whole_sectionOf {c : Cursor} (hi : WholeRows c) (hc : c.Proper) (h : c.ahead ≠ [])
    (closer : Closer) :
    (sectionOf row closer c).problems = [] ↔
      WholeList Mark.sign? (sectionOf row closer c).value.1 := by
  have hc₂ := c.take.2.passes_take.proper (c.passes_take.proper hc)
  have hlen := length_take_lt h
  have hlen₂ := c.take.2.passes_take.length_le
  have hrow := hi closer c.take.2.take.2 (by omega) hc₂
  have hopening := (allLeaves_take c).append (allLeaves_take c.take.2)
  simp only [sectionOf]
  split
  · rw [wholeList_leaves_append hopening]
    exact hrow
  · rw [wholeList_append_leaves (allLeaves_takeIf _ _), wholeList_append_leaves (allLeaves_take _),
      wholeList_append_leaves (allLeaves_take _), wholeList_leaves_append hopening]
    exact hrow

/-- What closes a section of `TRY` is both words. -/
theorem tryEnd_closes (c : Cursor) (h : Closer.tryEnd.closes c = true) :
    c.keyword? 0 = some .END ∧ c.keyword? 1 = some .TRY := by
  simp only [Closer.closes, Bool.and_eq_true] at h
  exact ⟨keyword?_of_isKeyword h.1, keyword?_of_isKeyword h.2⟩

theorem catchEnd_closes (c : Cursor) (h : Closer.catchEnd.closes c = true) :
    c.keyword? 0 = some .END ∧ c.keyword? 1 = some .CATCH := by
  simp only [Closer.closes, Bool.and_eq_true] at h
  exact ⟨keyword?_of_isKeyword h.1, keyword?_of_isKeyword h.2⟩

/-- A whole pair of sections, spelled out. -/
theorem isWhole_tryCatch_iff (ts : List Outline) :
    Kind.IsWhole .tryCatch (content Mark.sign? ts) ↔
      ∃ opening tried caught closing, words ts =
        opening ++ [some .END, some .TRY] ++ tried ++ [some .BEGIN, some .CATCH] ++ caught ++
          [some .END, some .CATCH] ++ closing := Iff.rfl

/-- Both sections of a `TRY` end with `END`. -/
theorem not_isWhole_tryCatch (ts : List Outline) (h : (words ts).count (some .END) < 2) :
    ¬ Kind.IsWhole .tryCatch (content Mark.sign? ts) := by
  rw [isWhole_tryCatch_iff]
  rintro ⟨opening, tried, caught, closing, hwords⟩
  rw [hwords] at h
  simp [List.count_append] at h
  omega

/-- Behind a section of `TRY` that is closed, the section of `CATCH` decides by its own end. -/
theorem isWhole_sections_iff {c d : Cursor} (hc : c.Proper) (hd : d.Proper)
    (hbegin : c.keyword? 0 = some .BEGIN) (htry : c.keyword? 1 = some .TRY)
    (hbegin' : d.keyword? 0 = some .BEGIN) (hcatch : d.keyword? 1 = some .CATCH)
    (hclosed : (sectionOf row .tryEnd c).value.2 = true) :
    Kind.IsWhole .tryCatch (content Mark.sign?
        ((sectionOf row .tryEnd c).value.1 ++ (sectionOf row .catchEnd d).value.1)) ↔
      (sectionOf row .catchEnd d).value.2 = true := by
  constructor
  · intro hwhole
    refine Classical.byContradiction fun hopen => ?_
    have hcount := count_end_sectionOf tryEnd_closes (by decide) hc hbegin htry
    have hcount' := count_end_sectionOf catchEnd_closes (by decide) hd hbegin' hcatch
    rw [if_pos hclosed] at hcount
    rw [if_neg hopen] at hcount'
    refine not_isWhole_tryCatch _ ?_ hwhole
    rw [words_append, List.count_append, hcount, hcount']
    decide
  · intro hclosed'
    obtain ⟨inner, behind, -, hwords⟩ := words_sectionOf tryEnd_closes hc hbegin htry
    obtain ⟨inner', behind', -, hwords'⟩ := words_sectionOf catchEnd_closes hd hbegin' hcatch
    rw [if_pos hclosed] at hwords
    rw [if_pos hclosed'] at hwords'
    rw [isWhole_tryCatch_iff, words_append, hwords, hwords']
    exact ⟨[some .BEGIN, some .TRY] ++ inner, behind, inner', behind', by simp⟩

/-- A section of `TRY` alone is not whole, closed or not. -/
theorem not_isWhole_section {c : Cursor} (hc : c.Proper)
    (hbegin : c.keyword? 0 = some .BEGIN) (htry : c.keyword? 1 = some .TRY) :
    ¬ Kind.IsWhole .tryCatch (content Mark.sign? (sectionOf row .tryEnd c).value.1) := by
  have hcount := count_end_sectionOf tryEnd_closes (by decide) hc hbegin htry
  refine not_isWhole_tryCatch _ ?_
  rw [hcount]
  split <;> decide

/-- Both sections are there and closed just when there is no problem. -/
theorem whole_tryCatch {c : Cursor} (hi : WholeRows c) (hc : c.Proper) (h : c.ahead ≠ [])
    (hbegin : c.keyword? 0 = some .BEGIN) (htry : c.keyword? 1 = some .TRY) :
    (tryCatch row c).problems = [] ↔ Whole Mark.sign? (tryCatch row c).value := by
  have hsection := whole_sectionOf hi hc h .tryEnd
  have hnot := not_isWhole_section hc hbegin htry
  simp only [tryCatch]
  split
  · rename_i hclosed
    split
    · rename_i hcatch
      rw [Bool.and_eq_true] at hcatch
      have hbegin' := keyword?_of_isKeyword hcatch.1
      have hcatch' := keyword?_of_isKeyword hcatch.2
      have hlen := (consumes_sectionOf consumes_row .tryEnd c).length_le
      have hc' := (consumes_sectionOf consumes_row .tryEnd c).proper hc
      have hne := ahead_ne_nil_of_atKeyword hcatch.1
      -- no more marks are ahead behind the first section, so the rows of the second are known
      have hsection' := whole_sectionOf (fun k d hd => hi k d (by omega)) hc' hne .catchEnd
      have hwhole := isWhole_sections_iff hc hc' hbegin htry hbegin' hcatch' hclosed
      rw [whole_node, wholeList_append, hwhole, ← hsection, ← hsection']
      simp [and_comm, and_left_comm]
    · simp [whole_node, hnot]
  · simp [whole_node, hnot]

/-! ### Branches -/

/-- An error node is never whole; it stands for a problem. -/
theorem not_whole_error (ts : List Outline) : ¬ Whole Mark.sign? (.node .error ts) := by
  rw [whole_node]
  exact fun h => h.1

/-- A body is there and whole, or there is a problem. -/
theorem whole_body {c₀ : Cursor} (hs : WholeReads c₀) (owner : Owner) {c : Cursor}
    (hc : c.Proper) (hlt : c.ahead.length < c₀.ahead.length) :
    (body read owner c).problems = [] ↔
      Kind.HasStatement (nodeKinds (body read owner c).value) ∧
        WholeList Mark.sign? (body read owner c).value := by
  simp only [body]
  split
  · rename_i hadmits
    have hne := ahead_ne_nil_of_admitsStatement hadmits
    have hread : (read c).problems = [] ↔ Whole Mark.sign? (read c).value := hs c hlt hne hc
    obtain ⟨k, ts, hvalue, hk⟩ := read_value hne
    -- an error is an item that is neither a statement nor whole
    have hkind : Whole Mark.sign? (read c).value →
        Kind.HasStatement (nodeKinds [(read c).value]) := by
      rw [hvalue]
      intro hwhole
      refine ⟨k, by simp, ?_⟩
      rw [Kind.isItem, Bool.or_eq_true] at hk
      refine hk.resolve_right fun herror => ?_
      rw [eq_of_beq herror] at hwhole
      exact not_whole_error ts hwhole
    rw [hread, wholeList_cons]
    simp only [wholeList_nil, and_true]
    exact ⟨fun h => ⟨hkind h, h⟩, fun h => h.2⟩
  · simp [Kind.HasStatement]

theorem nodeKinds_take (c : Cursor) : nodeKinds c.take.1 = [] := (allLeaves_take c).nodeKinds_eq

/-- `ELSE` has no problem just when a statement hangs on it. -/
theorem whole_elseClause {c₀ : Cursor} (hs : WholeReads c₀) {c : Cursor} (hc : c.Proper)
    (hlt : c.ahead.length < c₀.ahead.length) :
    (elseClause read c).problems = [] ↔ WholeList Mark.sign? (elseClause read c).value := by
  simp only [elseClause]
  split
  · have hlen := c.passes_take.length_le
    have hbody := whole_body hs .elseClause (c.passes_take.proper hc) (by omega)
    simp only [wholeList_cons, whole_node, wholeList_nil, and_true,
      wholeList_leaves_append (allLeaves_take c), Kind.IsWhole, content, nodeKinds_append,
      nodeKinds_take, List.nil_append]
    exact hbody
  · simp

/-- What an `IF` or `WHILE` needs right inside is in its condition and in its first body. -/
theorem isWhole_branches {cond body : List Outline} (behind : List Outline)
    (hcond : nodeKinds cond = [] ∨ nodeKinds cond = [.condition])
    (hbody : Kind.IsBody (nodeKinds body))
    (hbehind : nodeKinds behind = [] ∨ nodeKinds behind = [.elseClause]) :
    (.condition ∈ nodeKinds (cond ++ body ++ behind) ∧
        Kind.HasStatement (nodeKinds (cond ++ body ++ behind))) ↔
      .condition ∈ nodeKinds cond ∧ Kind.HasStatement (nodeKinds body) := by
  rw [nodeKinds_append, nodeKinds_append]
  rcases hbody with hbody | ⟨k, hk, hbody⟩
  · rcases hcond with hcond | hcond <;> rcases hbehind with hbehind | hbehind <;>
      simp [hcond, hbody, hbehind, Kind.HasStatement, Kind.isStatement]
  · have hne : Kind.condition ≠ k := by
      rintro rfl
      cases hk
    rcases hcond with hcond | hcond <;> rcases hbehind with hbehind | hbehind <;>
      simp [hcond, hbody, hbehind, Kind.HasStatement, Kind.isStatement, hne]

theorem isBody_body (owner : Owner) (c : Cursor) :
    Kind.IsBody (nodeKinds (body read owner c).value) :=
  (body_form (fun c _ => isRow_read_row.1 c) owner (Nat.lt_succ_self c.ahead.length)).1

/-- There is one `ELSE` or none. -/
theorem nodeKinds_elseClause (c : Cursor) :
    nodeKinds (elseClause read c).value = [] ∨
      nodeKinds (elseClause read c).value = [.elseClause] :=
  (elseClause_form (fun c _ => isRow_read_row.1 c) (Nat.lt_succ_self c.ahead.length)).1

/-- An `IF` lacks its condition or its statement just when there is a problem. -/
theorem whole_ifStatement {c : Cursor} (hs : WholeReads c) (hc : c.Proper) (h : c.ahead ≠ []) :
    (ifStatement read c).problems = [] ↔ Whole Mark.sign? (ifStatement read c).value := by
  have hc₁ := c.passes_take.proper hc
  have hc₂ := (consumes_condition .ifClause c.take.2).proper hc₁
  have hlen := length_take_lt h
  have hlen₁ := (consumes_condition .ifClause c.take.2).length_le
  have hlen₂ := (consumes_body consumes_read .ifClause
    (condition .ifClause c.take.2).rest).length_le
  have hcond := whole_condition .ifClause c.take.2
  have hyes := whole_body hs .ifClause hc₂ (by omega)
  have hno := whole_elseClause hs ((consumes_body consumes_read .ifClause _).proper hc₂) (by omega)
  have hbranches := isWhole_branches _ (condition_form .ifClause c.take.2).1
    (isBody_body .ifClause (condition .ifClause c.take.2).rest)
    (nodeKinds_elseClause (body read .ifClause (condition .ifClause c.take.2).rest).rest)
  simp only [ifStatement, List.append_eq_nil_iff, hcond, hyes, hno, whole_node, Kind.IsWhole,
    content, List.append_assoc, wholeList_leaves_append (allLeaves_take c), nodeKinds_append,
    nodeKinds_take, List.nil_append, wholeList_append] at hbranches ⊢
  rw [hbranches]
  simp only [and_assoc, and_left_comm]

/-- A `WHILE` lacks its condition or its statement just when there is a problem. -/
theorem whole_whileStatement {c : Cursor} (hs : WholeReads c) (hc : c.Proper) (h : c.ahead ≠ []) :
    (whileStatement read c).problems = [] ↔ Whole Mark.sign? (whileStatement read c).value := by
  have hc₁ := c.passes_take.proper hc
  have hc₂ := (consumes_condition .whileClause c.take.2).proper hc₁
  have hlen := length_take_lt h
  have hlen₁ := (consumes_condition .whileClause c.take.2).length_le
  have hcond := whole_condition .whileClause c.take.2
  have hbody := whole_body hs .whileClause hc₂ (by omega)
  have hbranches := isWhole_branches [] (condition_form .whileClause c.take.2).1
    (isBody_body .whileClause (condition .whileClause c.take.2).rest) (.inl rfl)
  simp only [whileStatement, List.append_eq_nil_iff, hcond, hbody, whole_node, Kind.IsWhole,
    content, List.append_assoc, wholeList_leaves_append (allLeaves_take c), nodeKinds_append,
    nodeKinds_take, List.nil_append, wholeList_append, List.append_nil] at hbranches ⊢
  rw [hbranches]
  simp only [and_assoc, and_left_comm]

/-! ### Statements and rows -/

/-- A `CATCH` without `TRY` is always a problem. -/
theorem whole_strayCatch (c : Cursor) :
    (strayCatch row c).problems = [] ↔ Whole Mark.sign? (strayCatch row c).value := by
  simp only [strayCatch]
  exact ⟨fun h => absurd h (List.cons_ne_nil _ _), fun h => absurd h (not_whole_error _)⟩

/-- The first word decides which of the rules is asked. -/
theorem whole_statementBy {c : Cursor} (hs : WholeReads c) (hi : WholeRows c) (hc : c.Proper)
    (h : c.ahead ≠ []) :
    (statementBy read row c).problems = [] ↔ Whole Mark.sign? (statementBy read row c).value := by
  unfold statementBy
  split
  · rename_i hbegin
    split
    · rename_i htry
      exact whole_tryCatch hi hc h hbegin (keyword?_of_isKeyword htry)
    split
    · exact whole_strayCatch c
    split
    · exact whole_simple h
    · exact whole_block hi hc h hbegin
  · exact whole_ifStatement hs hc h
  · exact whole_whileStatement hs hc h
  · exact whole_simple h

/-- Every item but a statement that is read without a problem is a problem of its own. -/
theorem whole_itemBy {c : Cursor} (hs : WholeRead c) :
    (itemBy read c).problems = [] ↔ WholeList Mark.sign? (itemBy read c).value := by
  have herror : ∀ (p : Problem) (ts : List Outline),
      [p] = [] ↔ WholeList Mark.sign? [Tree.node .error ts] := fun p ts =>
    ⟨nofun, fun h => absurd ((wholeList_cons _ _).mp h).1 (not_whole_error ts)⟩
  simp only [itemBy]
  split
  · exact ⟨fun _ => (allLeaves_take c).wholeList, fun _ => rfl⟩
  split
  · exact herror _ _
  split
  · exact herror _ _
  split
  · exact herror _ _
  · rw [wholeList_cons]
    simpa [WholeRead] using hs

/-- **A problem is met where a node is not whole**, in every statement and every row. -/
theorem whole_read_row :
    (∀ c : Cursor, c.ahead ≠ [] → c.Proper → WholeRead c) ∧
      ∀ k (c : Cursor), c.Proper → WholeRow k c := by
  refine read_row_induction (S := fun c => c.Proper → WholeRead c)
    (I := fun k c => c.Proper → WholeRow k c) ?_ ?_
  · intro c h hs hi hc
    rw [WholeRead, read_eq h]
    exact whole_statementBy hs hi hc h
  · intro k c hs hi hc
    rcases row_cases k c with ⟨-, hrow⟩ | ⟨-, hne, hlt, hrow⟩
    · simp [WholeRow, hrow]
    · have hitem := whole_itemBy (hs hne hc)
      have hothers := hi k _ hlt ((consumes_itemBy consumes_read c).proper hc)
      rw [WholeRow] at hothers
      rw [WholeRow, hrow, List.append_eq_nil_iff, wholeList_append, hitem, hothers]

/-- Batches and separators are whole if what they hold is. -/
theorem whole_batch {c : Cursor} (hc : c.Proper) :
    (batch c).problems = [] ↔ Whole Mark.sign? (batch c).value := by
  have hrow := whole_read_row.2 .never c hc
  have hvalue : (batch c).value = .node .batch (row .never c).value := rfl
  rw [hvalue, whole_node]
  exact hrow.trans (by simp [Kind.IsWhole])

/-- A separator has nothing that could be missing. -/
theorem whole_separator (c : Cursor) : Whole Mark.sign? (separator c).value := by
  rw [separator, whole_of_allLeaves ((allLeaves_take c).append (allLeaves_takeIf _ _))]
  trivial

/-- A script is whole batch by batch. -/
theorem whole_batches (count : Nat) {c : Cursor} (hc : c.Proper) :
    (batches count c).problems = [] ↔ WholeList Mark.sign? (batches count c).value := by
  induction count generalizing c with
  | zero => simp [batches]
  | succ n ih =>
      have hbatch := whole_batch hc
      have hline := whole_separator (batch c).rest
      have hothers := ih ((consumes_separator (batch c).rest).proper ((consumes_batch c).proper hc))
      have hnone : (separator (batch c).rest).problems = [] := rfl
      simp only [batches]
      split
      · simp [hbatch, hline, hnone, hothers]
      · simp [hbatch]

/-- **A script has no problems** just when all of its nodes are whole. -/
theorem whole_script {c : Cursor} (hc : c.Proper) :
    (script c).problems = [] ↔ Whole Mark.sign? (script c).value := by
  rw [script, whole_node]
  simpa [Kind.IsWhole] using whole_batches (c.ahead.length + 1) hc

end Outline

end SqlCaret
