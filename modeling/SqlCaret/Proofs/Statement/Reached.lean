import SqlCaret.Proofs.Parse.Clean
import SqlCaret.Proofs.Statement.Locate
import SqlCaret.Proofs.Statement.Parsed

/-!
# Statement — reached

From where in a text a locator finds a statement.  In a text without errors each significant token
is covered by an outermost statement, those of separators and empty statements apart
(`ParsedScript.exists_covering`); so there is an answer wherever a caret touches one.  And in any
text the answer covers a token that the caret stands inside of, since statements begin and end with
whole tokens (`ParsedScript.containsSpan_of_locate`).

`ParsedScript.reaches_tokens` puts the two together.
-/

namespace SqlCaret

open SqlCaret.Tree

/-! ### Tokens that are no part of a statement -/

/-- The row is that of a node which the token lies inside of. -/
def Tree.Row.Holds (r : Row) (t : Token) : Prop :=
  r.text = none ∧ r.start ≤ t.offset ∧ t.stop ≤ r.stop

namespace Parse

/-- The token is part of a separator line. -/
def InSeparator (text separator : List Char) (t : Token) : Prop :=
  ∃ r ∈ rows text separator, r.kind = .separator ∧ r.Holds t

/-- The token is a semicolon right inside a batch. -/
def IsEmptyStatement (text separator : List Char) (t : Token) : Prop :=
  t.kind = .semicolon ∧ ∃ r ∈ rows text separator, r.kind = .batch ∧ r.Holds t ∧
    ⟨r.depth + 1, t.kind, t.offset, t.stop, some t.text⟩ ∈ rows text separator

/-- The rows of what stands right inside a script. -/
theorem rows_subset_rows {text separator : List Char} {before behind : List SyntaxTree}
    {u : SyntaxTree}
    (htree : (ofText text separator).tree = .node .script (before ++ u :: behind)) :
    Tree.rows 1 (0 + sizeOfList before) u ⊆ rows text separator := by
  rw [rows, htree, rows_node]
  exact fun r hr => List.mem_cons_of_mem _ (rows_subset 1 0 before u behind hr)

end Parse

theorem Tree.mem_rows_node (depth start : Nat) (k : Kind) (us : List SyntaxTree) :
    ⟨depth, k, start, start + sizeOfList us, none⟩ ∈ rows depth start (.node k us) := by
  rw [rows_node]
  exact List.mem_cons_self

/-- The node holds each of its tokens. -/
theorem Tree.Row.holds_of_mem_place {depth start : Nat} {k : Kind} {us : List SyntaxTree}
    {t : Token} (h : t ∈ Token.place start (leavesOfList us)) :
    Row.Holds ⟨depth, k, start, start + sizeOfList us, none⟩ t := by
  rw [← leaves_node k] at h
  obtain ⟨hstart, hstop⟩ := bounds_of_mem_place h
  rw [size_node] at hstop
  exact ⟨rfl, hstart, hstop⟩

namespace Statement

/-- The statement of a node among trees. -/
theorem ofTree_mem_ofTrees (ix : LineIndex) (start : Nat) {k : Kind} (hk : k.isStatement = true)
    (before vs behind : List SyntaxTree) :
    ofTree ix (start + sizeOfList before) (.node k vs) ∈
      ofTrees ix start (before ++ .node k vs :: behind) := by
  rw [ofTrees_append, ofTrees, if_pos hk]
  simp

theorem ofTrees_mem_batchesOf (ix : LineIndex) (start : Nat) (before us behind : List SyntaxTree) :
    ofTrees ix (start + sizeOfList before) us ∈
      Script.batchesOf ix start (before ++ .node .batch us :: behind) := by
  rw [batchesOf_append]
  exact List.mem_append_right _ List.mem_cons_self

end Statement

namespace ParsedScript

variable {text separator : List Char}

/-- A significant token that is no part of a separator is in one of the batches. -/
theorem exists_batch {t : Token} (ht : t ∈ tokenize text) (hsig : t.isTrivia = false)
    (hsep : ¬ Parse.InSeparator text separator t) :
    ∃ before us behind,
      (Parse.ofText text separator).tree = .node .script (before ++ .node .batch us :: behind) ∧
        t ∈ Token.place (0 + sizeOfList before) (leavesOfList us) ∧
        ∀ l, .leaf l ∈ us → l.kind.isTrivia = true ∨ l.kind = .semicolon := by
  obtain ⟨ts, htree, -, hleaves, -⟩ := Parse.exists_tree text separator
  rw [tokenize, ← hleaves] at ht
  obtain ⟨before, u, behind, rfl, hu⟩ := exists_of_mem_place ht
  have hchild : u ∈ (Parse.ofText text separator).tree.children := by
    rw [htree]
    exact List.mem_append_right _ List.mem_cons_self
  cases u with
  | leaf l =>
      obtain rfl : t = ⟨l, _⟩ := by simpa [Token.place] using hu
      rw [Token.isTrivia, Parse.isTrivia_of_leaf_mem_script hchild] at hsig
      cases hsig
  | node k us =>
      rw [leaves_node] at hu
      rcases Parse.of_node_mem_script hchild with rfl | ⟨rfl, hdirect⟩
      · have hrow := Parse.rows_subset_rows htree (mem_rows_node 1 _ .separator us)
        exact absurd ⟨_, hrow, rfl, Row.holds_of_mem_place hu⟩ hsep
      · exact ⟨before, us, behind, htree, hu, hdirect⟩

/-- **No token of a clean text is left out.**  It lies inside an outermost statement, unless it
belongs to a separator or is an empty statement. -/
theorem exists_covering (h : (Parse.ofText text separator).errors = []) {t : Token}
    (ht : t ∈ tokenize text) (hsig : t.isTrivia = false)
    (hsep : ¬ Parse.InSeparator text separator t)
    (hempty : ¬ Parse.IsEmptyStatement text separator t) :
    ∃ st ∈ (ofText text separator).script.topLevel, ∃ start stop,
      st.span = ⟨(LineIndex.ofText text).point start, (LineIndex.ofText text).point stop⟩ ∧
        start ≤ t.offset ∧ t.stop ≤ stop := by
  obtain ⟨before, us, behind, htree, hu, hdirect⟩ := exists_batch ht hsig hsep
  obtain ⟨before', v, behind', rfl, hv⟩ := exists_of_mem_place hu
  have hmem : v ∈ before' ++ v :: behind' := List.mem_append_right _ List.mem_cons_self
  cases v with
  | leaf l =>
      -- the token stands right inside the batch, so it is an empty statement
      obtain rfl : t = ⟨l, _⟩ := by simpa [Token.place] using hv
      have hkind : l.kind = .semicolon :=
        (hdirect l hmem).resolve_left (Bool.not_eq_true _ ▸ hsig)
      have hrows := Parse.rows_subset_rows htree
      refine absurd ⟨hkind, _, hrows (mem_rows_node 1 _ .batch _), rfl, Row.holds_of_mem_place hu,
        hrows ?_⟩ hempty
      rw [rows_node]
      exact List.mem_cons_of_mem _ (rows_subset 2 _ before' _ behind' (by simp [rows, Token.stop]))
  | node k vs =>
      have hk : k.isStatement = true := by
        refine Parse.isStatement_of_mem_batch h ?_ hmem
        rw [htree]
        exact List.mem_append_right _ List.mem_cons_self
      have hbatch := Statement.ofTrees_mem_batchesOf (LineIndex.ofText text) 0 before
        (before' ++ .node k vs :: behind') behind
      have hstatement := Statement.ofTree_mem_ofTrees (LineIndex.ofText text)
        (0 + sizeOfList before) hk before' vs behind'
      obtain ⟨hstart, hstop⟩ := bounds_of_mem_place hv
      refine ⟨_, List.mem_flatten.mpr ⟨_, ?_, hstatement⟩, _, _, Statement.span_ofTree _ _ k vs,
        hstart, hstop⟩
      simpa only [ofText, Script.ofTree, htree, Tree.children] using hbatch

/-- **An answer covers the token that the caret stands inside of**, whatever the text. -/
theorem containsSpan_of_locate {scope : Scope} {o : Nat} (ho : Utf8.IsBoundary text o) {span : Span}
    (h : (ofText text separator).script.locate scope ((LineIndex.ofText text).point o) = some span)
    {t : Token} (ht : t ∈ tokenize text) (hstart : t.offset < o) (hstop : o < t.stop) :
    span.containsSpan
      ⟨(LineIndex.ofText text).point t.offset, (LineIndex.ofText text).point t.stop⟩ = true := by
  obtain ⟨st, hst, rfl, hcontains⟩ := Script.locate_sound h
  obtain ⟨r, hr, hrow, hspan⟩ := exists_row_of_mem_walk hst
  obtain ⟨⟨first, hfirst, hfirst'⟩, ⟨last, hlast, hlast'⟩, inside, -, before, behind, htext, hsize,
    hsize'⟩ := exists_text_of_row hr hrow
  have hboundary : Utf8.IsBoundary text r.start := ⟨before, inside ++ behind, htext, hsize⟩
  have hboundary' : Utf8.IsBoundary text r.stop :=
    ⟨before ++ inside, behind, by rw [htext, List.append_assoc], by rw [Utf8.size_append, hsize']⟩
  rw [hspan, Span.contains_iff] at hcontains
  have hle := LineIndex.le_of_point_le hboundary ho hcontains.1
  have hle' := LineIndex.le_of_point_le ho hboundary' hcontains.2
  -- the statement begins and ends with whole tokens, so it begins and ends outside of this one
  have hfirst'' : r.start ≤ t.offset := by
    rcases Token.apart (List.mem_filter.mp hfirst).1 ht with rfl | hapart | hapart
    · exact Nat.le_of_eq hfirst'.symm
    · rw [Token.stop] at hapart
      omega
    · omega
  have hlast'' : t.stop ≤ r.stop := by
    rcases Token.apart (List.mem_filter.mp hlast).1 ht with rfl | hapart | hapart
    · exact Nat.le_of_eq hlast'
    · omega
    · rw [← hlast']
      exact Nat.le_trans hapart (Nat.le_add_right _ _)
  rw [hspan, Span.containsSpan, Bool.and_eq_true, decide_eq_true_eq, decide_eq_true_eq]
  exact ⟨LineIndex.point_le_point text hfirst'', LineIndex.point_le_point text hlast''⟩

/-- **What a caret can reach in a clean text.**  Take a text without errors, and a caret where two
characters meet or at either end.

Where the caret touches a significant token that is neither part of a separator line nor an empty
statement, a statement is found in both scopes; and if the caret stands inside of that token, the
statement covers all of it.

So where no statement is found, the caret touches nothing but white space, comments, separator lines
and empty statements. -/
theorem reaches_tokens (h : (Parse.ofText text separator).errors = []) {o : Nat}
    (ho : Utf8.IsBoundary text o) (scope : Scope) :
    (∀ t ∈ Token.significant (tokenize text), ¬ Parse.InSeparator text separator t →
      ¬ Parse.IsEmptyStatement text separator t → t.offset ≤ o → o ≤ t.stop →
        ∃ span, (ofText text separator).script.locate scope ((LineIndex.ofText text).point o) =
            some span ∧
          (t.offset < o → o < t.stop →
            span.containsSpan ⟨(LineIndex.ofText text).point t.offset,
              (LineIndex.ofText text).point t.stop⟩ = true)) ∧
    ((ofText text separator).script.locate scope ((LineIndex.ofText text).point o) = none →
      ∀ t ∈ tokenize text, t.offset ≤ o → o ≤ t.stop →
        t.isTrivia = true ∨ Parse.InSeparator text separator t ∨
          Parse.IsEmptyStatement text separator t) := by
  -- a statement covers the token, and its points stand in the order of its bytes
  have hreach : ∀ t ∈ tokenize text, t.isTrivia = false → ¬ Parse.InSeparator text separator t →
      ¬ Parse.IsEmptyStatement text separator t → t.offset ≤ o → o ≤ t.stop →
        ((ofText text separator).script.locate scope
          ((LineIndex.ofText text).point o)).isSome = true := by
    intro t ht hsig hsep hempty hstart hstop
    obtain ⟨st, hst, start, stop, hspan, hle, hle'⟩ := exists_covering h ht hsig hsep hempty
    refine Script.isSome_locate scope hst ?_
    rw [hspan, Span.contains_iff]
    exact ⟨LineIndex.point_le_point text (by omega), LineIndex.point_le_point text (by omega)⟩
  constructor
  · intro t ht hsep hempty hstart hstop
    obtain ⟨ht, hsig⟩ := List.mem_filter.mp ht
    rw [Bool.not_eq_true'] at hsig
    obtain ⟨span, hspan⟩ := Option.isSome_iff_exists.mp (hreach t ht hsig hsep hempty hstart hstop)
    exact ⟨span, hspan, containsSpan_of_locate ho hspan ht⟩
  · intro hnone t ht hstart hstop
    refine Classical.byContradiction fun hnot => ?_
    rw [not_or, not_or, Bool.not_eq_true] at hnot
    have hsome := hreach t ht hnot.1 hnot.2.1 hnot.2.2 hstart hstop
    rw [hnone] at hsome
    cases hsome

/-- A caret inside of a word, and one behind the semicolon that ends the statement. -/
theorem reaches_tokens_print :
    (∃ span, (ofText "PRINT 1;".toList "GO".toList).script.locate .inner
          ((LineIndex.ofText "PRINT 1;".toList).point 2) = some span ∧
        span.containsSpan ⟨(LineIndex.ofText "PRINT 1;".toList).point 0,
          (LineIndex.ofText "PRINT 1;".toList).point 5⟩ = true) ∧
      ∃ span, (ofText "PRINT 1;".toList "GO".toList).script.locate .block
        ((LineIndex.ofText "PRINT 1;".toList).point 8) = some span := by
  have herrors : (Parse.ofText "PRINT 1;".toList "GO".toList).errors = [] := by decide +kernel
  have htokens : tokenize "PRINT 1;".toList = [⟨⟨.word, "PRINT".toList⟩, 0⟩,
      ⟨⟨.whitespace, [' ']⟩, 5⟩, ⟨⟨.number, ['1']⟩, 6⟩, ⟨⟨.semicolon, [';']⟩, 7⟩] := by
    decide +kernel
  have hrows : Parse.rows "PRINT 1;".toList "GO".toList =
      [⟨0, .script, 0, 8, none⟩, ⟨1, .batch, 0, 8, none⟩, ⟨2, .statement, 0, 8, none⟩,
        ⟨3, .word, 0, 5, some "PRINT".toList⟩, ⟨3, .whitespace, 5, 6, some [' ']⟩,
        ⟨3, .number, 6, 7, some ['1']⟩, ⟨3, .semicolon, 7, 8, some [';']⟩] := by decide +kernel
  have hsep : ∀ t, ¬ Parse.InSeparator "PRINT 1;".toList "GO".toList t := by
    have hnone : ∀ r ∈ Parse.rows "PRINT 1;".toList "GO".toList, r.kind ≠ .separator := by
      rw [hrows]
      decide
    rintro t ⟨r, hr, hkind, -⟩
    exact hnone r hr hkind
  have hempty :
      ¬ Parse.IsEmptyStatement "PRINT 1;".toList "GO".toList ⟨⟨.semicolon, [';']⟩, 7⟩ := by
    have hnone : ∀ r ∈ Parse.rows "PRINT 1;".toList "GO".toList, r.kind = .batch →
        ⟨r.depth + 1, .semicolon, 7, 8, some [';']⟩ ∉
          Parse.rows "PRINT 1;".toList "GO".toList := by
      rw [hrows]
      decide
    rintro ⟨-, r, hr, hkind, -, hright⟩
    exact hnone r hr hkind hright
  constructor
  · obtain ⟨span, hspan, hcovers⟩ := (reaches_tokens herrors (o := 2)
      ⟨['P', 'R'], "INT 1;".toList, by decide, by decide⟩ .inner).1 ⟨⟨.word, "PRINT".toList⟩, 0⟩
      (by rw [htokens]; decide) (hsep _) (fun h => absurd h.1 (by decide)) (by decide) (by decide)
    exact ⟨span, hspan, hcovers (by decide) (by decide)⟩
  · obtain ⟨span, hspan, -⟩ := (reaches_tokens herrors (o := 8)
      ⟨"PRINT 1;".toList, [], by decide, by decide⟩ .block).1 ⟨⟨.semicolon, [';']⟩, 7⟩
      (by rw [htokens]; decide) (hsep _) hempty (by decide) (by decide)
    exact ⟨span, hspan⟩

end ParsedScript

end SqlCaret
