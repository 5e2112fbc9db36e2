import SqlCaret.Proofs.Outline.Extents
import SqlCaret.Proofs.Outline.Separators

/-!
# Outline — bounds

Every simple statement and every condition of a script ends where it has to (`Stretch.Bounded`), and
the definition of a module ends its batch.

`Delimited c₀ c ts c'` says so of what is read from `c` to `c'`: a module inside is the last thing
that is read (`Delimited.flush`).  For every rule that goes on behind what it has read asks first
whether the batch ends, so that nothing comes behind a module (`Delimited.append`); all but one do.
An `IF` looks for its `ELSE` without asking, and so a module in front of a separator line is the
last thing of its batch only where `ELSE` is no separator (`Cursor.ElseFree`).
-/

namespace SqlCaret

open SqlCaret.Tree

/-- No separator ahead is an `ELSE`. -/
def Cursor.ElseFree (c : Cursor) : Prop :=
  ∀ m ∈ c.ahead, m.separates = true → m.keyword ≠ some .ELSE

namespace Stretch

/-- The node is a statement that defines a module. -/
structure IsModule (c₀ : Cursor) (s : Stretch) : Prop where
  kind : s.kind = .statement
  starts : (c₀.skip s.first).startsModule = true

/-- A simple statement and a condition are as long as the marks tell, and not empty. -/
structure Bounded (c₀ : Cursor) (s : Stretch) : Prop where
  definition : s.IsModule c₀ → (c₀.skip s.stop).atBatchEnd = true
  statement : s.kind = .statement → (c₀.skip s.first).startsModule = false →
    ∃ n, s.stop = s.first + n ∧ (c₀.skip s.first).StatementExtent n
  condition : s.kind = .condition →
    ∃ n, s.stop = s.first + n ∧ (c₀.skip s.first).ConditionExtent n
  nonempty : s.kind = .statement ∨ s.kind = .condition → s.first < s.stop

variable {c₀ : Cursor} {k : Kind} {first stop : Nat}

/-- Only a statement defines a module. -/
theorem not_isModule (hk : k ≠ .statement) : ¬ IsModule c₀ ⟨k, first, stop⟩ := fun h => hk h.kind

/-- Other nodes may be of any length. -/
theorem Bounded.other (hk : ¬(k = .statement ∨ k = .condition)) : Bounded c₀ ⟨k, first, stop⟩ where
  definition := fun h => absurd h (not_isModule fun hs => hk (.inl hs))
  statement := fun h => absurd (.inl h) hk
  condition := fun h => absurd (.inr h) hk
  nonempty := fun h => absurd h hk

end Stretch

namespace Outline

/-- What is read from `c` to `c'` ends where it has to, as seen from `c₀` in front of the script. -/
structure Delimited (c₀ c : Cursor) (ts : List Outline) (c' : Cursor) : Prop where
  passes : c.Passes (leavesOfList ts) c'
  bounded : ∀ s ∈ stretchesOfList c.index ts, s.Bounded c₀
  /-- A module is the last thing that is read. -/
  flush : c₀.ElseFree → ∀ s ∈ stretchesOfList c.index ts, s.IsModule c₀ →
    s.stop = c'.index ∧ c'.atBatchEnd = true

/-- And no module is read. -/
structure Plain (c₀ c : Cursor) (ts : List Outline) (c' : Cursor) : Prop
    extends Delimited c₀ c ts c' where
  still : c₀.ElseFree → ∀ s ∈ stretchesOfList c.index ts, ¬ s.IsModule c₀

variable {c₀ c c₁ c₂ c' : Cursor} {ts us : List Outline}

/-- Trees in a row have the stretches of both, the second ones from where the first end. -/
theorem forall_stretches_append {P : Stretch → Prop} (h : c.Passes (leavesOfList ts) c₁) :
    (∀ s ∈ stretchesOfList c.index (ts ++ us), P s) ↔
      (∀ s ∈ stretchesOfList c.index ts, P s) ∧ ∀ s ∈ stretchesOfList c₁.index us, P s := by
  rw [stretchesOfList_append, ← h.index, List.forall_mem_append]

/-- A node's stretch and those inside it. -/
theorem forall_stretches_node {P : Stretch → Prop} {k : Kind} {first : Nat} :
    (∀ s ∈ stretchesOfList first [.node k ts], P s) ↔
      P ⟨k, first, first + (leavesOfList ts).length⟩ ∧ ∀ s ∈ stretchesOfList first ts, P s := by
  rw [stretchesOfList_cons, stretches_node, stretchesOfList_nil, List.append_nil,
    List.forall_mem_cons]

namespace Plain

/-- Tokens alone have no stretches to bound. -/
theorem leaves (h : AllLeaves ts) (hp : c.Passes (leavesOfList ts) c') : Plain c₀ c ts c' := by
  have hnone : stretchesOfList c.index ts = [] := stretchesOfList_of_allLeaves h c.index
  exact ⟨⟨hp, by simp [hnone], by simp [hnone]⟩, by simp [hnone]⟩

theorem take (c₀ c : Cursor) : Plain c₀ c c.take.1 c.take.2 :=
  leaves (allLeaves_take c) c.passes_take

theorem takeIf (c₀ c : Cursor) (p : Bool) : Plain c₀ c (c.takeIf p).1 (c.takeIf p).2 :=
  leaves (allLeaves_takeIf c p) (c.passes_takeIf p)

theorem nil (c₀ c : Cursor) : Plain c₀ c [] c := takeIf c₀ c false

end Plain

namespace Delimited

/-- Where the batch does not end, no module has been read. -/
theorem plain (h : Delimited c₀ c ts c') (hend : ¬ c'.atBatchEnd = true) : Plain c₀ c ts c' :=
  ⟨h, fun helse s hs hmodule => hend (h.flush helse s hs hmodule).2⟩

/-- Nothing comes behind a module. -/
theorem join (h : Delimited c₀ c ts c₁) (h' : Delimited c₀ c₁ us c₂)
    (hlast : c₀.ElseFree → ∀ s ∈ stretchesOfList c.index ts, s.IsModule c₀ → us = []) :
    Delimited c₀ c (ts ++ us) c₂ where
  passes := by
    rw [leavesOfList_append]
    exact h.passes.trans h'.passes
  bounded := (forall_stretches_append h.passes).mpr ⟨h.bounded, h'.bounded⟩
  flush := by
    intro helse
    refine (forall_stretches_append h.passes).mpr ⟨fun s hs hmodule => ?_, h'.flush helse⟩
    have hpasses := h'.passes
    rw [hlast helse s hs hmodule, leavesOfList_nil] at hpasses
    have hsame : c₂ = c₁ := hpasses.eq_skip
    rw [hsame]
    exact h.flush helse s hs hmodule

/-- What asks first whether the batch ends may come behind anything. -/
theorem append (h : Delimited c₀ c ts c₁) (h' : Delimited c₀ c₁ us c₂)
    (hstop : c₀.ElseFree → c₁.atBatchEnd = true → us = []) : Delimited c₀ c (ts ++ us) c₂ :=
  h.join h' fun helse s hs hmodule => hstop helse (h.flush helse s hs hmodule).2

/-- What is inside a node stays bounded, if the node itself needs no bounds. -/
theorem node (h : Delimited c₀ c ts c') {k : Kind} (hk : ¬(k = .statement ∨ k = .condition)) :
    Delimited c₀ c [.node k ts] c' where
  passes := by simpa using h.passes
  bounded := forall_stretches_node.mpr ⟨.other hk, h.bounded⟩
  flush := fun helse => forall_stretches_node.mpr
    ⟨fun h => absurd h (Stretch.not_isModule fun hs => hk (.inl hs)), h.flush helse⟩

end Delimited

namespace Plain

/-- Behind what is no module anything may come. -/
theorem append (h : Plain c₀ c ts c₁) (h' : Delimited c₀ c₁ us c₂) :
    Delimited c₀ c (ts ++ us) c₂ :=
  h.join h' fun helse s hs hmodule => absurd hmodule (h.still helse s hs)

/-- In front of what holds no module, anything may be read. -/
theorem append_plain (h : Plain c₀ c ts c₁) (h' : Plain c₀ c₁ us c₂) :
    Plain c₀ c (ts ++ us) c₂ where
  toDelimited := h.append h'.toDelimited
  still := fun helse =>
    (forall_stretches_append h.passes).mpr ⟨h.still helse, h'.still helse⟩

end Plain

/-! ### What a rule reads -/

/-- A cursor is told by how many marks it has passed. -/
theorem eq_skip_of_passes (hc : c = c₀.skip c.index) {ms : List Mark} (h : c.Passes ms c') :
    c' = c₀.skip c'.index := by
  rw [h.index, skip_index_add hc]
  exact h.eq_skip

theorem stretches_of_leaves {k : Kind} {ts : List Outline} (h : AllLeaves ts) (first : Nat) :
    stretchesOfList first [.node k ts] = [⟨k, first, first + (leavesOfList ts).length⟩] := by
  simp [stretchesOfList_of_allLeaves h]

section
variable (hproper : c₀.Proper)
include hproper

/-- Behind marks that are skipped, only words spell keywords. -/
theorem proper_of_eq_skip (hc : c = c₀.skip c.index) : c.Proper := by
  rw [hc]
  exact hproper.skip _

/-- **A simple statement ends where it has to**, and a module there ends its batch. -/
theorem delimited_simple (hc : c = c₀.skip c.index) (hne : c.ahead ≠ [])
    (hsemicolon : c.atKind .semicolon = false) :
    Delimited c₀ c [(simple c).value] (simple c).rest := by
  obtain ⟨n, hpos, hlength, hmodule, hextent⟩ :=
    extent_simple (proper_of_eq_skip hproper hc) hne hsemicolon
  have hpasses := consumes_simple c
  have hleaves : AllLeaves (c.take.1 ++
      (c.take.2.collect judgeSimple (Clauses.opening c, ({} : Nesting).pass c)).1) :=
    (allLeaves_take c).append (allLeaves_collect _ _ _)
  have hstretches : stretchesOfList c.index [(simple c).value] =
      [⟨.statement, c.index, c.index + n⟩] := by
    rw [← hlength, simple, stretches_of_leaves hleaves, leaves_node]
  have hrest : c.skip n = (simple c).rest := by rw [← hlength, hpasses.eq_skip]
  have hindex : c.index + n = (simple c).rest.index := by rw [hpasses.index, hlength]
  have hend : Stretch.IsModule c₀ ⟨.statement, c.index, c.index + n⟩ →
      (simple c).rest.atBatchEnd = true := fun h => by
    rw [← hrest]
    exact hmodule (hc ▸ h.starts)
  refine ⟨by simpa using hpasses, ?_, fun _ => ?_⟩
  · rw [hstretches, List.forall_mem_singleton]
    refine ⟨fun h => ?_, fun _ h => ⟨n, rfl, ?_⟩, by simp, fun _ => Nat.lt_add_of_pos_right hpos⟩
    · rw [skip_index_add hc, hrest]
      exact hend h
    · rw [← hc] at h ⊢
      exact hextent h
  · rw [hstretches, List.forall_mem_singleton]
    exact fun h => ⟨hindex, hend h⟩

/-- A condition ends where it has to. -/
theorem plain_condition (hc : c = c₀.skip c.index) (owner : Owner)
    (hname : c.afterNameIntro = false) :
    Plain c₀ c (condition owner c).value (condition owner c).rest := by
  cases hadmits : c.admitsCondition with
  | false =>
      simp only [condition, hadmits, Bool.false_eq_true, if_false]
      exact .nil c₀ c
  | true =>
      obtain ⟨n, hpos, hlength, hextent⟩ :=
        extent_condition (proper_of_eq_skip hproper hc) owner hadmits hname
      have hleaves : AllLeaves (c.take.1 ++
          (c.take.2.collect judgeCondition (({} : Nesting).pass c)).1) :=
        (allLeaves_take c).append (allLeaves_collect _ _ _)
      have hstretches : stretchesOfList c.index (condition owner c).value =
          [⟨.condition, c.index, c.index + n⟩] := by
        rw [condition, if_pos hadmits] at hlength ⊢
        rw [← hlength, stretches_of_leaves hleaves, leavesOfList_cons, leaves_node,
          leavesOfList_nil, List.append_nil]
      have hnot : ¬ Stretch.IsModule c₀ ⟨.condition, c.index, c.index + n⟩ :=
        Stretch.not_isModule (by decide)
      refine ⟨⟨consumes_condition owner c, ?_, fun _ => ?_⟩, fun _ => ?_⟩
      all_goals rw [hstretches, List.forall_mem_singleton]
      · refine ⟨fun h => absurd h hnot, by simp, fun _ => ⟨n, rfl, ?_⟩,
          fun _ => Nat.lt_add_of_pos_right hpos⟩
        rw [← hc]
        exact hextent
      · exact fun h => absurd h hnot
      · exact hnot

end

/-! ### Rules that call each other -/

/-- A statement that is read from `c` ends where it has to. -/
def DelimitedRead (c₀ c : Cursor) : Prop :=
  c = c₀.skip c.index → c.atKind .semicolon = false →
    Delimited c₀ c [(read c).value] (read c).rest

/-- A row that is read from `c` ends where it has to. -/
def DelimitedRow (c₀ : Cursor) (k : Closer) (c : Cursor) : Prop :=
  c = c₀.skip c.index → Delimited c₀ c (row k c).value (row k c).rest

/-- Statements that have fewer marks ahead than `c`. -/
def DelimitedReads (c₀ c : Cursor) : Prop :=
  ∀ d : Cursor, d.ahead.length < c.ahead.length → d.ahead ≠ [] → DelimitedRead c₀ d

/-- Rows that have fewer marks ahead than `c`. -/
def DelimitedRows (c₀ c : Cursor) : Prop :=
  ∀ k (d : Cursor), d.ahead.length < c.ahead.length → DelimitedRow c₀ k d

/-- The body of a branch is asked for only inside of the batch. -/
theorem delimited_body {b : Cursor} (hs : DelimitedReads c₀ b) (hc : c = c₀.skip c.index)
    (hlt : c.ahead.length < b.ahead.length) (owner : Owner) :
    Delimited c₀ c (body read owner c).value (body read owner c).rest := by
  simp only [body]
  split
  · rename_i hadmits
    have hne := ahead_ne_nil_of_admitsStatement hadmits
    simp only [Cursor.admitsStatement, Bool.and_eq_true, Bool.not_eq_true'] at hadmits
    obtain ⟨⟨⟨⟨-, hsemicolon⟩, -⟩, -⟩, -⟩ := hadmits
    exact hs c hlt hne hc hsemicolon
  · exact (Plain.nil c₀ c).toDelimited

/-- Behind the items of a block, `END` is asked for only inside of the batch. -/
theorem delimited_block (hi : DelimitedRows c₀ c) (hc : c = c₀.skip c.index) (hne : c.ahead ≠ []) :
    Delimited c₀ c [(block row c).value] (block row c).rest := by
  have hfirst := eq_skip_of_passes hc c.passes_take
  have hopen := (Plain.take c₀ c).append (hi .block c.take.2 (length_take_lt hne) hfirst)
  simp only [block]
  split
  · exact hopen.node (by decide)
  · rename_i hend
    refine Delimited.node (Plain.toDelimited ?_) (by decide)
    exact ((hopen.plain hend).append_plain (.take _ _)).append_plain (.takeIf _ _ _)

/-- A section that is closed has no module in it. -/
theorem delimited_sectionOf (hi : DelimitedRows c₀ c) (hc : c = c₀.skip c.index)
    (hne : c.ahead ≠ []) (closer : Closer) :
    Delimited c₀ c (sectionOf row closer c).value.1 (sectionOf row closer c).rest ∧
      ((sectionOf row closer c).value.2 = true →
        Plain c₀ c (sectionOf row closer c).value.1 (sectionOf row closer c).rest) := by
  have hfirst := eq_skip_of_passes hc c.passes_take
  have hsecond := eq_skip_of_passes hfirst c.take.2.passes_take
  have hlt : c.take.2.take.2.ahead.length < c.ahead.length :=
    Nat.lt_of_le_of_lt c.take.2.passes_take.length_le (length_take_lt hne)
  have hopen :=
    ((Plain.take c₀ c).append_plain (.take c₀ c.take.2)).append (hi closer _ hlt hsecond)
  simp only [sectionOf]
  split
  · exact ⟨hopen, by simp⟩
  · rename_i hend
    suffices hclosed : Plain c₀ c _ _ from ⟨hclosed.toDelimited, fun _ => hclosed⟩
    exact (((hopen.plain hend).append_plain (.take _ _)).append_plain (.take _ _)).append_plain
      (.takeIf _ _ _)

/-- `CATCH` is looked for only behind `END TRY`, which a module does not leave over. -/
theorem delimited_tryCatch (hi : DelimitedRows c₀ c) (hc : c = c₀.skip c.index)
    (hne : c.ahead ≠ []) : Delimited c₀ c [(tryCatch row c).value] (tryCatch row c).rest := by
  obtain ⟨hopen, hclosed⟩ := delimited_sectionOf hi hc hne .tryEnd
  simp only [tryCatch]
  split
  · rename_i hend
    split
    · rename_i hbegin
      have hrest := eq_skip_of_passes hc hopen.passes
      rw [Bool.and_eq_true] at hbegin
      have hne' := ahead_ne_nil_of_atKeyword hbegin.1
      have hle := hopen.passes.length_le
      have hcatch := (delimited_sectionOf (fun k d hd => hi k d (by omega)) hrest hne' .catchEnd).1
      exact ((hclosed hend).append hcatch).node (by decide)
    · exact hopen.node (by decide)
  · exact hopen.node (by decide)

/-- A section of `CATCH` alone is bounded as its items are. -/
theorem delimited_strayCatch (hi : DelimitedRows c₀ c) (hc : c = c₀.skip c.index)
    (hne : c.ahead ≠ []) : Delimited c₀ c [(strayCatch row c).value] (strayCatch row c).rest :=
  (delimited_sectionOf hi hc hne .catchEnd).1.node (by decide)

/-- There is no `ELSE` where the batch ends, unless it is the separator. -/
theorem atKeyword_else_of_atBatchEnd (helse : c₀.ElseFree) (hc : c = c₀.skip c.index)
    (hend : c.atBatchEnd = true) : c.atKeyword .ELSE = false := by
  refine Bool.eq_false_iff.mpr fun hat => ?_
  obtain ⟨prev, ahead, index⟩ := c
  cases ahead with
  | nil => cases hat
  | cons m ms =>
      have hahead := congrArg Cursor.ahead hc
      rw [Cursor.ahead_skip] at hahead
      have hmem : m ∈ c₀.ahead := by
        refine List.mem_of_mem_drop (i := index) ?_
        rw [← hahead]
        exact List.mem_cons_self
      simp only [Cursor.atBatchEnd, Cursor.atEnd, Cursor.atSeparator, Cursor.spellsSeparator,
        List.isEmpty_cons, Bool.false_or, Bool.and_eq_true] at hend
      exact helse m hmem hend.1.1 (keyword?_of_isKeyword hat)

/-- Where `ELSE` is read, its statement is bounded. -/
theorem delimited_elseClause {b : Cursor} (hs : DelimitedReads c₀ b) (hc : c = c₀.skip c.index)
    (hlt : c.ahead.length < b.ahead.length) :
    Delimited c₀ c (elseClause read c).value (elseClause read c).rest := by
  simp only [elseClause]
  split
  · have hbody := delimited_body hs (eq_skip_of_passes hc c.passes_take)
      (Nat.lt_of_le_of_lt c.passes_take.length_le hlt) .elseClause
    exact ((Plain.take c₀ c).append hbody).node (by decide)
  · exact (Plain.nil c₀ c).toDelimited

/-- A branch that stops at the end of the batch has no `ELSE` behind it. -/
theorem elseClause_eq_nil (helse : c₀.ElseFree) (hc : c = c₀.skip c.index)
    (hend : c.atBatchEnd = true) : (elseClause read c).value = [] := by
  simp only [elseClause, atKeyword_else_of_atBatchEnd helse hc hend, Bool.false_eq_true, if_false]

/-- The mark before a condition is an `IF` or a `WHILE`. -/
theorem afterNameIntro_take {k : Keyword} (hproper : c.Proper) (hk : c.atKeyword k = true)
    (hne : k ≠ .AS) : c.take.2.afterNameIntro = false := by
  have hkind := hproper.kind_eq_word hk
  have hkeyword := keyword?_of_isKeyword hk
  obtain ⟨prev, ahead, index⟩ := c
  cases ahead with
  | nil => cases hk
  | cons m ms =>
      have hkind : m.kind = .word := hkind
      have hkeyword : m.keyword = some k := hkeyword
      simp [Cursor.afterNameIntro, Cursor.take, Cursor.prevKind, Cursor.prevIsAny, hkind, hkeyword,
        hne]

section
variable (hproper : c₀.Proper)
include hproper

/-- A module in the first branch ends the batch only where `ELSE` is no separator. -/
theorem delimited_ifStatement (hs : DelimitedReads c₀ c) (hc : c = c₀.skip c.index)
    (hif : c.atKeyword .IF = true) (hne : c.ahead ≠ []) :
    Delimited c₀ c [(ifStatement read c).value] (ifStatement read c).rest := by
  have hc₁ := eq_skip_of_passes hc c.passes_take
  have hcond := plain_condition hproper hc₁ .ifClause
    (afterNameIntro_take (proper_of_eq_skip hproper hc) hif (by decide))
  have hc₂ := eq_skip_of_passes hc₁ hcond.passes
  have hlt := Nat.lt_of_le_of_lt hcond.passes.length_le (length_take_lt hne)
  have hyes := delimited_body hs hc₂ hlt .ifClause
  have hc₃ := eq_skip_of_passes hc₂ hyes.passes
  have hno := delimited_elseClause hs hc₃ (Nat.lt_of_le_of_lt hyes.passes.length_le hlt)
  have hbranch := ((Plain.take c₀ c).append_plain hcond).append hyes
  exact (hbranch.append hno fun helse => elseClause_eq_nil helse hc₃).node (by decide)

/-- The body is the last thing of a loop. -/
theorem delimited_whileStatement (hs : DelimitedReads c₀ c) (hc : c = c₀.skip c.index)
    (hwhile : c.atKeyword .WHILE = true) (hne : c.ahead ≠ []) :
    Delimited c₀ c [(whileStatement read c).value] (whileStatement read c).rest := by
  have hc₁ := eq_skip_of_passes hc c.passes_take
  have hcond := plain_condition hproper hc₁ .whileClause
    (afterNameIntro_take (proper_of_eq_skip hproper hc) hwhile (by decide))
  have hc₂ := eq_skip_of_passes hc₁ hcond.passes
  have hlt := Nat.lt_of_le_of_lt hcond.passes.length_le (length_take_lt hne)
  have hbody := delimited_body hs hc₂ hlt .whileClause
  exact (((Plain.take c₀ c).append_plain hcond).append hbody).node (by decide)

/-- Whatever the first word makes of a statement is bounded. -/
theorem delimited_statementBy (hs : DelimitedReads c₀ c) (hi : DelimitedRows c₀ c)
    (hc : c = c₀.skip c.index) (hne : c.ahead ≠ []) (hsemicolon : c.atKind .semicolon = false) :
    Delimited c₀ c [(statementBy read row c).value] (statementBy read row c).rest := by
  have hat : ∀ {k}, c.keyword? 0 = some k → c.atKeyword k = true := fun h => by
    rw [Cursor.atKeyword, Cursor.isKeyword, h, beq_self_eq_true]
  unfold statementBy
  split
  · split
    · exact delimited_tryCatch hi hc hne
    split
    · exact delimited_strayCatch hi hc hne
    split
    · exact delimited_simple hproper hc hne hsemicolon
    · exact delimited_block hi hc hne
  · exact delimited_ifStatement hproper hs hc (hat ‹_›) hne
  · exact delimited_whileStatement hproper hs hc (hat ‹_›) hne
  · exact delimited_simple hproper hc hne hsemicolon

omit hproper in

/-- An item is bounded if the statement in it is. -/
theorem delimited_itemBy (hs : DelimitedRead c₀ c) (hc : c = c₀.skip c.index) :
    Delimited c₀ c (itemBy read c).value (itemBy read c).rest := by
  simp only [itemBy]
  split
  · exact (Plain.take c₀ c).toDelimited
  rename_i hsemicolon
  split
  · refine Delimited.node (Plain.toDelimited ?_) (by decide)
    exact (Plain.take c₀ c).append_plain (.takeIf _ _ _)
  split
  · exact (Plain.take c₀ c).node (by decide)
  split
  · exact (Plain.take c₀ c).node (by decide)
  · exact hs hc (Bool.eq_false_iff.mpr hsemicolon)

/-- **Every statement and every row ends where it has to.** -/
theorem delimited_read_row :
    (∀ c : Cursor, c.ahead ≠ [] → DelimitedRead c₀ c) ∧ ∀ k c, DelimitedRow c₀ k c := by
  refine read_row_induction ?_ ?_
  · intro c hne hs hi hc hsemicolon
    rw [read_eq hne]
    exact delimited_statementBy hproper hs hi hc hne hsemicolon
  · intro k c hs hi hc
    rcases row_cases k c with ⟨-, hrow⟩ | ⟨-, hne, hlt, hrow⟩
    · rw [hrow]
      exact (Plain.nil c₀ c).toDelimited
    · have hitem := delimited_itemBy (hs hne) hc
      have hothers := hi k _ hlt (eq_skip_of_passes hc hitem.passes)
      rw [hrow]
      refine hitem.append hothers fun _ hend => ?_
      rcases row_cases k (itemBy read c).rest with ⟨-, hnone⟩ | ⟨hnot, -⟩
      · rw [hnone]
      · rw [hend] at hnot
        cases hnot

/-! ### Batches -/

/-- The nodes of a batch end where they have to, and a module in it ends where it ends. -/
theorem bounded_batch (hc : c = c₀.skip c.index) :
    ∀ s ∈ stretches c.index (batch c).value, s.Bounded c₀ ∧ (c₀.ElseFree → s.IsModule c₀ →
      ∃ b ∈ stretches c.index (batch c).value, b.kind = .batch ∧ b.first ≤ s.first ∧
        b.stop = s.stop) := by
  have hrow := (delimited_read_row hproper).2 .never c hc
  have hindex := hrow.passes.index
  have hvalue : (batch c).value = .node .batch (row .never c).value := rfl
  rw [hvalue, stretches_node, List.forall_mem_cons]
  refine ⟨⟨.other (by decide), fun _ h => absurd h (Stretch.not_isModule (by decide))⟩,
    fun s hs => ⟨hrow.bounded s hs, ?_⟩⟩
  intro helse hmodule
  obtain ⟨hstop, -⟩ := hrow.flush helse s hs hmodule
  refine ⟨_, List.mem_cons_self, rfl, (mem_stretchesOfList _ _ s hs).1, ?_⟩
  rw [hstop, hindex]

/-- **Statements and conditions of a script end where they have to, and modules end their
batches.** -/
theorem bounded_parts : ∀ c, c = c₀.skip c.index →
    ∀ s ∈ stretchesAhead c, s.Bounded c₀ ∧ (c₀.ElseFree → s.IsModule c₀ →
      ∃ b ∈ stretchesAhead c, b.kind = .batch ∧ b.first ≤ s.first ∧ b.stop = s.stop) := by
  refine parts_induction (fun c hsep hc => ?_) (fun c hsep ih hc => ?_)
  · rw [stretchesAhead_last hsep]
    exact bounded_batch hproper hc
  · have hbehind := ih (eq_skip_of_passes (eq_skip_of_passes hc (consumes_batch c))
      (consumes_separator _))
    rw [stretchesAhead_line hsep, List.forall_mem_append, List.forall_mem_cons]
    refine ⟨fun s hs => ?_,
      ⟨.other (by decide), fun _ h => absurd h (Stretch.not_isModule (by decide))⟩, fun s hs => ?_⟩
    · obtain ⟨hbounded, hmodule⟩ := bounded_batch hproper hc s hs
      refine ⟨hbounded, fun helse h => ?_⟩
      obtain ⟨b, hb, hends⟩ := hmodule helse h
      exact ⟨b, List.mem_append_left _ hb, hends⟩
    · obtain ⟨hbounded, hmodule⟩ := hbehind s hs
      refine ⟨hbounded, fun helse h => ?_⟩
      obtain ⟨b, hb, hends⟩ := hmodule helse h
      exact ⟨b, List.mem_append_right _ (List.mem_cons_of_mem _ hb), hends⟩

end

end Outline

end SqlCaret
