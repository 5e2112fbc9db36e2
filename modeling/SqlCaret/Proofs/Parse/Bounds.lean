import SqlCaret.Proofs.Outline.Bounds
import SqlCaret.Proofs.Parse.Complete

/-!
# Parse — bounds

Where simple statements and conditions begin and end in the tokens of a text
(`Parse.statement_bounds`).

A node of the syntax tree has a stretch of the significant tokens (`Tree.Row.HasTokens`), and just
those that its outline has.  So the extents of `Outline/Extents`, which are told by marks, are told
by the cursor in front of the first token that a node has.
-/

namespace SqlCaret

open SqlCaret.Tree

/-- Of the significant tokens, the row has the `n` from the `first` on. -/
structure Tree.Row.HasTokens (ts : List Token) (r : Row) (first n : Nat) : Prop where
  length : first + n ≤ (Token.significant ts).length
  iff : ∀ i t, (Token.significant ts)[i]? = some t →
    (r.start ≤ t.offset ∧ t.stop ≤ r.stop ↔ first ≤ i ∧ i < first + n)

theorem Tree.Row.hasTokens_iff {ts : List Token} {r : Row} {first n : Nat} :
    r.HasTokens ts first n ↔ first + n ≤ (Token.significant ts).length ∧
      ∀ (i : Nat) (hi : i < (Token.significant ts).length),
        (r.start ≤ (Token.significant ts)[i].offset ∧ (Token.significant ts)[i].stop ≤ r.stop ↔
          first ≤ i ∧ i < first + n) := by
  constructor
  · exact fun h => ⟨h.length, fun i hi => h.iff i _ (List.getElem?_eq_getElem hi)⟩
  · rintro ⟨hlength, hiff⟩
    refine ⟨hlength, fun i t ht => ?_⟩
    obtain ⟨hi, rfl⟩ := List.getElem?_eq_some_iff.mp ht
    exact hiff i hi

instance (ts : List Token) (r : Tree.Row) (first n : Nat) : Decidable (r.HasTokens ts first n) :=
  decidable_of_iff _ Tree.Row.hasTokens_iff.symm

namespace Parse

/-- The significant tokens, as many as `n` from the `first` on, are the last of a batch. -/
def EndsBatch (text separator : List Char) (first n : Nat) : Prop :=
  ∃ b ∈ Parse.rows text separator, b.text = none ∧ b.kind = .batch ∧
    ∃ first' n', b.HasTokens (tokenize text) first' n' ∧ first' ≤ first ∧ first' + n' = first + n

theorem offsetAt_le_offsetAt {text : List Char} {i j : Nat} (hij : i ≤ j)
    (hi : i < (Token.significant (tokenize text)).length) :
    Token.offsetAt (tokenize text) i ≤ Token.offsetAt (tokenize text) j := by
  rcases Nat.lt_or_eq_of_le hij with hij | rfl
  · exact Nat.le_of_lt (Token.offsetAt_lt_offsetAt hij hi)
  · exact Nat.le_refl _

/-- **A row has the tokens of its stretch.** -/
theorem hasTokens_of_matches {text : List Char} {r : Row} {s : Stretch}
    (h : r.Matches (tokenize text) s) {n : Nat} (hn : s.stop = s.first + n)
    (hlength : s.stop ≤ (Token.significant (tokenize text)).length) :
    r.HasTokens (tokenize text) s.first n := by
  refine ⟨hn ▸ hlength, fun i t ht => ?_⟩
  have hi := (List.getElem?_eq_some_iff.mp ht).1
  have hoffset := Token.offsetAt_of_getElem? ht
  have hne : t.offset < t.stop := by
    obtain ⟨-, -, -, -, hne, -⟩ :=
      exists_around_of_mem_tokenize (List.mem_filter.mp (List.mem_of_getElem? ht)).1
    exact Nat.lt_add_of_pos_right (Nat.pos_of_ne_zero (mt Utf8.size_eq_zero_iff.mp hne))
  rw [← hn, h.start, ← hoffset]
  constructor
  · rintro ⟨hstart, hstop⟩
    constructor
    · refine Nat.le_of_not_lt fun hlt => ?_
      have := Token.offsetAt_lt_offsetAt hlt hi
      omega
    · refine Nat.lt_of_not_le fun hle => ?_
      have hbehind := offsetAt_le_offsetAt hle (Nat.lt_of_le_of_lt hle hi)
      have := h.stop
      omega
  · rintro ⟨hfirst, hstop⟩
    exact ⟨offsetAt_le_offsetAt hfirst (by omega), h.ended i t hstop ht⟩

/-- A separator that is not `ELSE`. -/
theorem elseFree_cursor {separator : List Char}
    (h : Letters.same separator "ELSE".toList = false) (text : List Char) :
    (cursor separator text).ElseFree := by
  intro m hm hseparates helse
  rw [(Mark.keyword_of_separates hm hseparates).2] at helse
  have hentries : ∀ e ∈ Keyword.entries, e.2 = .ELSE → e.1 = Letters.fold "ELSE".toList := by decide
  have hfold := hentries _ (Keyword.mem_entries_of_ofWord? helse) rfl
  rw [Letters.same_iff.mpr hfold] at h
  cases h

/-- There are as many significant tokens as the outline has marks. -/
theorem length_leaves_outlines (separator text : List Char) :
    (leavesOfList (outlines separator text)).length =
      (Token.significant (tokenize text)).length := by
  rw [Token.length_significant_tokenize, significantKinds_lexemes separator text, List.length_map]

section
variable {separator text : List Char} {s : Stretch}
  (hs : s ∈ stretchesOfList 0 (outlines separator text))
include hs

theorem bounded_of_mem_stretches :
    s.Bounded (cursor separator text) ∧ ((cursor separator text).ElseFree →
      s.IsModule (cursor separator text) →
        ∃ b ∈ stretchesOfList 0 (outlines separator text),
          b.kind = .batch ∧ b.first ≤ s.first ∧ b.stop = s.stop) :=
  Outline.bounded_parts (proper_cursor separator text) (cursor separator text) rfl s hs

/-- The row of a stretch has its tokens. -/
theorem hasTokens_of_mem_stretches {r : Row} (h : r.Matches (tokenize text) s) {n : Nat}
    (hn : s.stop = s.first + n) : r.HasTokens (tokenize text) s.first n := by
  refine hasTokens_of_matches h hn ?_
  have hstop := (mem_stretchesOfList 0 _ s hs).2
  rwa [Nat.zero_add, length_leaves_outlines] at hstop

/-- A module that ends its batch in the outline ends it in the syntax tree. -/
theorem endsBatch_of_stretch {n : Nat} (hn : s.stop = s.first + n)
    (helse : Letters.same separator "ELSE".toList = false)
    (hmodule : s.IsModule (cursor separator text)) : EndsBatch text separator s.first n := by
  obtain ⟨b, hb, hkind, hfirst, hstop⟩ :=
    (bounded_of_mem_stretches hs).2 (elseFree_cursor helse text) hmodule
  obtain ⟨script, rs, hrows, -, hmatch⟩ := exists_rows_eq text separator
  obtain ⟨r, hr, hmatches⟩ := hmatch.of_stretch b hb
  have hlength : b.stop = b.first + (b.stop - b.first) := by omega
  refine ⟨r, ?_, hmatches.text, hmatches.kind.trans hkind, b.first, b.stop - b.first,
    hasTokens_of_mem_stretches hb hmatches hlength, hfirst, by omega⟩
  rw [hrows]
  exact List.mem_cons_of_mem _ hr

end

/-- **Where simple statements and conditions begin and end.**  Each has a stretch of the significant
tokens, and not an empty one.

A statement that defines no module has no semicolon outside of parentheses but at its end, and no
`ELSE` and no closing `END` outside of parentheses and of every `CASE` but at its start; and unless
it ends with such a semicolon, the batch ends behind it, or an `ELSE`, a closing `END` or the start
of a statement stands there (`Cursor.StatementExtent`).  The definition of a module goes on to where
a batch ends, and unless the separator is `ELSE`, its last token is the last of its batch.  A
condition has no semicolon and no start of a statement outside of parentheses, and no `ELSE` and no
`END` outside of every `CASE` as well (`Cursor.ConditionExtent`). -/
theorem statement_bounds (text separator : List Char) (r : Row)
    (hr : r ∈ Parse.rows text separator) (hnode : r.text = none)
    (hkind : r.kind = .statement ∨ r.kind = .condition) :
    ∃ first n, 0 < n ∧ r.HasTokens (tokenize text) first n ∧
      let c := (cursor separator text).skip first
      (r.kind = .statement → c.startsModule = false → c.StatementExtent n) ∧
      (r.kind = .statement → c.startsModule = true → (c.skip n).atBatchEnd = true ∧
        (Letters.same separator "ELSE".toList = false → EndsBatch text separator first n)) ∧
      (r.kind = .condition → c.ConditionExtent n) := by
  obtain ⟨script, rs, hrows, hscript, hmatch⟩ := exists_rows_eq text separator
  rw [hrows, List.mem_cons] at hr
  rcases hr with rfl | hr
  · rw [hscript] at hkind
    rcases hkind with hkind | hkind <;> cases hkind
  obtain ⟨s, hs, hmatches⟩ := hmatch.of_row r hr hnode
  obtain ⟨hbounded, -⟩ := bounded_of_mem_stretches hs
  rw [hmatches.kind] at hkind ⊢
  have hlt := hbounded.nonempty hkind
  have hn : s.stop = s.first + (s.stop - s.first) := by omega
  refine ⟨s.first, s.stop - s.first, by omega, hasTokens_of_mem_stretches hs hmatches hn,
    fun hstatement hstarts => ?_, fun hstatement hstarts => ⟨?_, fun helse => ?_⟩, fun hcond => ?_⟩
  · obtain ⟨n, hstop, hextent⟩ := hbounded.statement hstatement hstarts
    rwa [hstop, Nat.add_sub_cancel_left]
  · rw [← Cursor.skip_add, ← hn]
    exact hbounded.definition ⟨hstatement, hstarts⟩
  · exact endsBatch_of_stretch hs hn helse ⟨hstatement, hstarts⟩
  · obtain ⟨n, hstop, hextent⟩ := hbounded.condition hcond
    rwa [hstop, Nat.add_sub_cancel_left]

/-- The body of an `IF`, up to its semicolon. -/
theorem statement_bounds_print :
    let text := "IF 1 = 1 PRINT (2);\nSELECT 3".toList
    let r : Row := ⟨3, .statement, 9, 19, none⟩
    r ∈ Parse.rows text defaultSeparator ∧ r.text = none ∧
      (r.kind = .statement ∨ r.kind = .condition) ∧
      ∃ first n, 0 < n ∧ r.HasTokens (tokenize text) first n ∧
        (((cursor defaultSeparator text).skip first).startsModule = false →
          ((cursor defaultSeparator text).skip first).StatementExtent n) := by
  intro text r
  have hr : r ∈ Parse.rows text defaultSeparator := by decide +kernel
  obtain ⟨first, n, hpos, htokens, hstatement, -⟩ :=
    statement_bounds text defaultSeparator r hr rfl (.inl rfl)
  exact ⟨hr, rfl, .inl rfl, first, n, hpos, htokens, hstatement rfl⟩

/-- A view in front of a line with an `ELSE`, which is the separator. -/
def viewBeforeElse : List Char := "IF 1 = 1 CREATE VIEW v\nELSE\nPRINT 1".toList

/-- The definition of a module need not end its batch: an `IF` takes the separator line behind its
body for its `ELSE`. -/
theorem not_endsBatch_viewBeforeElse :
    ¬ ∀ (text separator : List Char) (r : Row), r ∈ Parse.rows text separator → r.text = none →
      r.kind = .statement → ∀ first n, r.HasTokens (tokenize text) first n →
        ((cursor separator text).skip first).startsModule = true →
          EndsBatch text separator first n := by
  intro h
  have hview := h viewBeforeElse "ELSE".toList ⟨3, .statement, 9, 22, none⟩ (by decide +kernel)
    rfl rfl 4 3 (by decide +kernel) (by decide +kernel)
  obtain ⟨b, hb, -, hkind, first, n, htokens, -, hend⟩ := hview
  have hbatches : ∀ b ∈ Parse.rows viewBeforeElse "ELSE".toList, b.kind = .batch →
      b.start = 0 ∧ b.stop = 35 := by decide +kernel
  obtain ⟨hstart, hstop⟩ := hbatches b hb hkind
  -- the `1` behind `PRINT` is a token of this batch too
  have hlast := htokens.iff 9 ⟨⟨.number, ['1']⟩, 34⟩ (by decide +kernel)
  rw [hstart, hstop] at hlast
  have := (hlast.mp (by decide)).2
  omega

end Parse

end SqlCaret
