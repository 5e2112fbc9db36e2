import SqlCaret.Proofs.Outline.Separators
import SqlCaret.Proofs.Parse.Lossless
import SqlCaret.Proofs.Statement.Parsed
import SqlCaret.Proofs.Syntax.Words

/-!
# Parse — separators

Batches end at the separator lines, whatever is open in front of them (`Parse.separator_lines`).
Where a separator line starts is a matter of the tokens alone, `Cursor.atSeparator` in front of
one; and just there the separators of the syntax tree start, no other node but the script reaches
over such a token, and there is one batch more than there are such tokens.

This needs a separator that is none of the four words that the grammar passes without asking:
`BEGIN`, `TRY`, `CATCH` and `ELSE`.
-/

namespace SqlCaret

open SqlCaret.Tree

/-! ### Words that are no separator -/

namespace Keyword

/-- How the words are spelled that the grammar passes without asking. -/
def unguardedNames : List String := ["BEGIN", "TRY", "CATCH", "ELSE"]

/-- A word that is spelled like none of them is none of them. -/
theorem ofWord?_ne_of_unguarded {w : List Char}
    (h : ∀ name ∈ unguardedNames, Letters.same w name.toList = false) :
    ∀ k ∈ unguarded, ofWord? w ≠ some k := by
  intro k hk hw
  have hentries : ∀ e ∈ entries, e.2 ∈ unguarded →
      ∃ name ∈ unguardedNames, e.1 = Letters.fold name.toList := by decide
  obtain ⟨name, hname, hfold⟩ := hentries _ (mem_entries_of_ofWord? hw) hk
  have hsame := h name hname
  rw [Letters.same_iff.mpr hfold] at hsame
  cases hsame

end Keyword

namespace Mark

/-- Each mark is read from a lexeme. -/
theorem exists_lexeme_of_mem_read {separator : List Char} {o b : Bool} {ls : List Lexeme}
    {m : Mark} (h : m ∈ read separator o b ls) :
    ∃ l ∈ ls, l.kind.isTrivia = false ∧ ∃ o b, m = ofLexeme separator o b l := by
  induction ls generalizing o b with
  | nil => cases h
  | cons l ls ih =>
      rw [read] at h
      split at h
      · obtain ⟨l', hl', hm⟩ := ih h
        exact ⟨l', List.mem_cons_of_mem _ hl', hm⟩
      · rename_i hl
        rcases List.mem_cons.mp h with rfl | h
        · exact ⟨l, List.mem_cons_self, by simpa using hl, _, _, rfl⟩
        · obtain ⟨l', hl', hm⟩ := ih h
          exact ⟨l', List.mem_cons_of_mem _ hl', hm⟩

/-- A mark that spells the separator spells no other word than that. -/
theorem keyword_of_separates {separator : List Char} {o b : Bool} {ls : List Lexeme} {m : Mark}
    (hm : m ∈ read separator o b ls) (hseparates : m.separates = true) :
    m.kind = .word ∧ m.keyword = Keyword.ofWord? separator := by
  obtain ⟨l, -, -, o', b', rfl⟩ := exists_lexeme_of_mem_read hm
  simp only [ofLexeme, Bool.and_eq_true, beq_iff_eq] at hseparates
  refine ⟨hseparates.1, ?_⟩
  rw [ofLexeme, if_pos hseparates.1, Keyword.ofWord?_congr (Letters.same_iff.mp hseparates.2)]

theorem guarded_of_mem_read {separator : List Char}
    (h : ∀ k ∈ Keyword.unguarded, Keyword.ofWord? separator ≠ some k) {o b : Bool}
    {ls : List Lexeme} {m : Mark} (hm : m ∈ read separator o b ls) : m.Guarded := by
  intro hseparates
  obtain ⟨hkind, hkeyword⟩ := keyword_of_separates hm hseparates
  exact ⟨hkind, fun k hk => by rw [hkeyword]; exact h k hk⟩

end Mark

/-! ### The order of significant tokens -/

namespace Token

theorem pairwise_place {ls : List Lexeme} (h : ∀ l ∈ ls, l.text ≠ []) (start : Nat) :
    (place start ls).Pairwise (·.offset < ·.offset) := by
  refine (pairwise_stop_le_place start ls).imp_of_mem fun {a b} ha _ hle => ?_
  obtain ⟨before, behind, rfl, -⟩ := mem_place ha
  have hne := mt Utf8.size_eq_zero_iff.mp (h a.toLexeme (by simp))
  rw [stop] at hle
  omega

end Token

theorem finalStop_tokenize (text : List Char) :
    Token.finalStop (tokenize text) = Utf8.size text := by
  rw [tokenize, Token.finalStop_place, flatMap_text_lexemes]

theorem offset_lt_size {text : List Char} {t : Token} (h : t ∈ tokenize text) :
    t.offset < Utf8.size text := by
  obtain ⟨before, behind, htext, hsize, hne, -⟩ := exists_around_of_mem_tokenize h
  have hne := mt Utf8.size_eq_zero_iff.mp hne
  rw [htext, Utf8.size_append, Utf8.size_append]
  omega

/-- **Significant tokens stand in order**, and all of them before the end of the text. -/
theorem Token.offsetAt_lt_offsetAt {text : List Char} {i j : Nat} (hij : i < j)
    (hi : i < (Token.significant (tokenize text)).length) :
    offsetAt (tokenize text) i < offsetAt (tokenize text) j := by
  have horder : (significant (tokenize text)).Pairwise (·.offset < ·.offset) :=
    (pairwise_place (fun l => text_ne_nil_of_mem_lexemes) 0).filter _
  have hget : offsetAt (tokenize text) i = (significant (tokenize text))[i].offset := by
    rw [offsetAt, List.getElem?_eq_getElem hi]
  rw [hget, offsetAt]
  split
  · rename_i t ht
    obtain ⟨hj, rfl⟩ := List.getElem?_eq_some_iff.mp ht
    exact List.pairwise_iff_getElem.mp horder i j hi hj hij
  · rw [finalStop_tokenize]
    exact offset_lt_size (List.mem_filter.mp (List.getElem_mem hi)).1

theorem Token.length_significant_tokenize (text : List Char) :
    (Token.significant (tokenize text)).length = (significantKinds (lexemes text)).length :=
  length_significant_place 0 _

/-- A place among the significant tokens that has the offset of one is its place. -/
theorem Token.eq_of_offsetAt_eq {text : List Char} {i j : Nat}
    (hi : i < (Token.significant (tokenize text)).length)
    (h : offsetAt (tokenize text) j = offsetAt (tokenize text) i) : j = i := by
  rcases Nat.lt_trichotomy i j with hij | rfl | hji
  · have := offsetAt_lt_offsetAt hij hi
    omega
  · rfl
  · have := offsetAt_lt_offsetAt hji (Nat.lt_trans hji hi)
    omega

theorem Token.offsetAt_of_getElem? {ts : List Token} {i : Nat} {t : Token}
    (h : (significant ts)[i]? = some t) : offsetAt ts i = t.offset := by
  rw [offsetAt, h]

/-! ### The syntax tree -/

namespace Parse

/-- **The nodes of a parse** are the script and those that the outline has. -/
theorem exists_rows_eq (text separator : List Char) :
    ∃ script rs, Parse.rows text separator = script :: rs ∧ script.kind = .script ∧
      RowsMatch (tokenize text) rs (stretchesOfList 0 (outlines separator text)) := by
  obtain ⟨ts, rest, hw, hrest⟩ := exists_weaves_lexemes separator text
  obtain ⟨-, hparse⟩ := ofText_eq hw hrest
  have hrows := rowsOfList_append 1 0 ts (rest.map .leaf)
  have htokens : RowsMatch (tokenize text) (rowsOfList 1 (0 + sizeOfList ts) (rest.map .leaf)) [] :=
    .tokens fun _ => text_ne_none_of_mem_leaves
  have hnodes : RowsMatch (tokenize text) (rowsOfList 1 0 ts)
      (stretchesOfList 0 (outlines separator text)) := hw.rows_match [] 1
  have hmatch := hnodes.append htokens
  rw [List.append_nil, ← hrows] at hmatch
  have hall : Parse.rows text separator =
      ⟨0, .script, 0, 0 + sizeOfList (ts ++ rest.map .leaf), none⟩ ::
        rowsOfList 1 0 (ts ++ rest.map .leaf) := by rw [Parse.rows, hparse, rows_node]
  exact ⟨_, _, hall, rfl, hmatch⟩

theorem length_batchesOf (ix : LineIndex) (start : Nat) (ts : List SyntaxTree) :
    (Script.batchesOf ix start ts).length = (nodeKinds ts).count .batch := by
  induction ts generalizing start with
  | nil => rfl
  | cons t ts ih =>
      cases t with
      | leaf l => simpa [Script.batchesOf] using ih _
      | node k us =>
          by_cases hk : k = .batch
          · subst hk
            simp [Script.batchesOf, ih]
          · simp [Script.batchesOf, ih, hk]

/-- The script has as many batches as the outline. -/
theorem length_batches (text separator : List Char) :
    (ParsedScript.ofText text separator).script.batches.length =
      (nodeKinds (outlines separator text)).count .batch := by
  obtain ⟨ts, rest, hw, hrest⟩ := exists_weaves_lexemes separator text
  obtain ⟨-, hparse⟩ := ofText_eq hw hrest
  simp only [ParsedScript.ofText, hparse, Script.ofTree, Tree.children, length_batchesOf,
    nodeKinds_append, (allLeaves_map_leaf rest).nodeKinds_eq, List.append_nil, hw.nodeKinds_eq]

/-- There is one batch more than separator lines, unless the separator is a word that the grammar
passes without asking. -/
theorem length_batches_eq_lineCount {separator : List Char}
    (h : ∀ k ∈ Keyword.unguarded, Keyword.ofWord? separator ≠ some k) (text : List Char) :
    (ParsedScript.ofText text separator).script.batches.length =
      Outline.lineCount (cursor separator text).ahead + 1 := by
  rw [length_batches]
  exact Outline.count_batch_parts fun _ => Mark.guarded_of_mem_read h

/-- As many marks as significant tokens are ahead. -/
theorem length_ahead_cursor (separator text : List Char) :
    (cursor separator text).ahead.length = (Token.significant (tokenize text)).length := by
  have hkinds := congrArg List.length (significantKinds_lexemes separator text)
  rw [List.length_map, Parse.outlines, ← leaves_node .script] at hkinds
  rw [← Outline.leaves_script, Token.length_significant_tokenize, hkinds]
  rfl

theorem mem_linesAhead (separator text : List Char) (i : Nat) :
    i ∈ Outline.linesAhead (cursor separator text) (cursor separator text) ↔
      i < (Token.significant (tokenize text)).length ∧
        ((cursor separator text).skip i).atSeparator = true := by
  rw [Outline.linesAhead, List.mem_filter, List.mem_range'_1, length_ahead_cursor]
  simp [cursor, Cursor.ofMarks]

/-- The outline of a text is parted by its separator lines. -/
theorem separated_cursor {separator : List Char}
    (h : ∀ name ∈ Keyword.unguardedNames, Letters.same separator name.toList = false)
    (text : List Char) :
    Outline.Separated (cursor separator text) (cursor separator text) :=
  Outline.separated (fun _ => Mark.guarded_of_mem_read (Keyword.ofWord?_ne_of_unguarded h)) _ rfl

section
variable {separator : List Char}
  (h : ∀ name ∈ Keyword.unguardedNames, Letters.same separator name.toList = false)
  {text : List Char} {i : Nat} {t : Token} (ht : (Token.significant (tokenize text))[i]? = some t)
include h ht

/-- A separator of the syntax tree starts with a significant token just where a separator line
starts. -/
theorem starts_separator_iff :
    (∃ r ∈ Parse.rows text separator,
        r.text = none ∧ r.kind = .separator ∧ r.start = t.offset) ↔
      ((cursor separator text).skip i).atSeparator = true := by
  obtain ⟨script, rs, hrows, hscript, hmatch⟩ := exists_rows_eq text separator
  -- the separators that are read are the separator lines ahead, one for each
  have hlines : ((stretchesOfList 0 (outlines separator text)).filter
      (·.kind == .separator)).map (·.first) =
      Outline.linesAhead (cursor separator text) (cursor separator text) :=
    (separated_cursor h text).lines
  have hi := (List.getElem?_eq_some_iff.mp ht).1
  have hoffset := Token.offsetAt_of_getElem? ht
  constructor
  · rintro ⟨r, hr, hnode, hkind, hstart⟩
    rw [hrows, List.mem_cons] at hr
    rcases hr with rfl | hr
    · rw [hscript] at hkind
      cases hkind
    · obtain ⟨s, hs, hr⟩ := hmatch.of_row r hr hnode
      have hfirst : s.first = i :=
        Token.eq_of_offsetAt_eq hi (by rw [← hr.start, hstart, hoffset])
      have hline : i ∈ Outline.linesAhead (cursor separator text) (cursor separator text) := by
        rw [← hlines, List.mem_map]
        exact ⟨s, List.mem_filter.mpr ⟨hs, by rw [← hr.kind, hkind]; rfl⟩, hfirst⟩
      exact ((mem_linesAhead separator text i).mp hline).2
  · intro hsep
    have hline := (mem_linesAhead separator text i).mpr ⟨hi, hsep⟩
    rw [← hlines, List.mem_map] at hline
    obtain ⟨s, hs, rfl⟩ := hline
    obtain ⟨hs, hkind⟩ := List.mem_filter.mp hs
    obtain ⟨r, hr, hmatches⟩ := hmatch.of_stretch s hs
    refine ⟨r, ?_, hmatches.text, ?_, by rw [hmatches.start, hoffset]⟩
    · rw [hrows]
      exact List.mem_cons_of_mem _ hr
    · rw [hmatches.kind]
      simpa using hkind

/-- Of the nodes of the syntax tree, only the script and a separator reach over a token that a
separator line starts with. -/
theorem script_or_separator_of_reaches
    (hsep : ((cursor separator text).skip i).atSeparator = true) {r : Tree.Row}
    (hr : r ∈ Parse.rows text separator) (hnode : r.text = none) (hle : r.start ≤ t.offset)
    (hlt : t.offset < r.stop) : r.kind = .script ∨ r.kind = .separator := by
  obtain ⟨script, rs, hrows, hscript, hmatch⟩ := exists_rows_eq text separator
  have hi := (List.getElem?_eq_some_iff.mp ht).1
  have hoffset := Token.offsetAt_of_getElem? ht
  rw [hrows, List.mem_cons] at hr
  rcases hr with rfl | hr
  · exact .inl hscript
  obtain ⟨s, hs, hr⟩ := hmatch.of_row r hr hnode
  refine .inr (Classical.byContradiction fun hkind => ?_)
  rw [hr.kind] at hkind
  -- another node than the separator would reach over the token, and its stretch over the mark
  have hfirst : s.first ≤ i := Nat.le_of_not_lt fun hlt => by
    have := Token.offsetAt_lt_offsetAt hlt hi
    rw [← hr.start, hoffset] at this
    omega
  have hstop : i < s.stop := Nat.lt_of_not_le fun hle => by
    have hstop := hr.stop
    rcases Nat.lt_or_eq_of_le hle with hlt' | rfl
    · have := Token.offsetAt_lt_offsetAt hlt' (Nat.lt_trans hlt' hi)
      omega
    · omega
  have hnone := (separated_cursor h text).clear s hs hkind i hfirst hstop
  rw [hnone] at hsep
  cases hsep

end

/-- **Separator lines end batches**, whatever is open in front of them.  Unless the separator is
one of four words, a separator of the syntax tree starts with a significant token just where a
separator line starts with it, as seen from the cursor in front of it; no node but the script and
the separator itself reaches over such a token, neither a statement nor a block nor a condition;
and there is one batch more than there are such tokens. -/
theorem separator_lines (text separator : List Char)
    (h : ∀ name ∈ Keyword.unguardedNames, Letters.same separator name.toList = false) :
    (∀ i t, (Token.significant (tokenize text))[i]? = some t →
      ((∃ r ∈ Parse.rows text separator,
          r.text = none ∧ r.kind = .separator ∧ r.start = t.offset) ↔
        ((cursor separator text).skip i).atSeparator = true) ∧
      (((cursor separator text).skip i).atSeparator = true →
        ∀ r ∈ Parse.rows text separator, r.text = none → r.start ≤ t.offset → t.offset < r.stop →
          r.kind = .script ∨ r.kind = .separator)) ∧
    (ParsedScript.ofText text separator).script.batches.length =
      (List.range (Token.significant (tokenize text)).length).countP
        (fun i => ((cursor separator text).skip i).atSeparator) + 1 := by
  refine ⟨fun i t ht => ⟨starts_separator_iff h ht, fun hsep r hr =>
    script_or_separator_of_reaches h ht hsep hr⟩, ?_⟩
  rw [length_batches, List.countP_eq_length_filter, List.range_eq_range',
    ← length_ahead_cursor separator text]
  exact (separated_cursor h text).batches

/-- A block and a parenthesis are open in front of the third token, and the batch ends there. -/
theorem separator_lines_block :
    (∀ name ∈ Keyword.unguardedNames, Letters.same defaultSeparator name.toList = false) ∧
      (∃ r ∈ Parse.rows "BEGIN (\nGO\nEND".toList defaultSeparator,
        r.text = none ∧ r.kind = .separator ∧ r.start = 8) ∧
      (ParsedScript.ofText "BEGIN (\nGO\nEND".toList defaultSeparator).script.batches.length = 2 := by
  have hgo : ∀ name ∈ Keyword.unguardedNames, Letters.same defaultSeparator name.toList = false :=
    by decide
  obtain ⟨hlines, hbatches⟩ := separator_lines "BEGIN (\nGO\nEND".toList defaultSeparator hgo
  have hline := (hlines 2 ⟨⟨.word, ['G', 'O']⟩, 8⟩ (by decide +kernel)).1
  refine ⟨hgo, hline.mpr (by decide +kernel), ?_⟩
  rw [hbatches]
  decide +kernel

end Parse

end SqlCaret
