import SqlCaret.Proofs.Outline.Whole
import SqlCaret.Proofs.Parse.Errors
import SqlCaret.Proofs.Parse.Separators
import SqlCaret.Proofs.Syntax.Cut

/-!
# Parse — complete

A parse has no errors just when its tree is complete (`Parse.errors_eq_nil_iff_complete`): no token
of it is unterminated, and each of its nodes is whole.  The errors of the grammar are met where a
node of the outline is not whole (`Outline.whole_script`), and weaving keeps what is whole; the
other errors are those of unterminated tokens.

The errors come in order of their offsets, and each stands at a token or at the end of the text.
-/

namespace SqlCaret

open SqlCaret.Tree

/-- A syntax tree in which nothing is missing. -/
structure Tree.Complete (t : SyntaxTree) : Prop where
  terminated : ∀ l ∈ leaves t, l.kind ∉ Kind.unterminated
  whole : Whole Lexeme.sign? t

namespace SyntaxError

theorem faultOf?_eq_none_iff {k : Kind} : faultOf? k = none ↔ k ∉ Kind.unterminated := by
  cases k <;> simp [faultOf?, Kind.unterminated]

theorem ofTokens_eq_nil_iff {ts : List Token} :
    ofTokens ts = [] ↔ ∀ l ∈ ts.map Token.toLexeme, l.kind ∉ Kind.unterminated := by
  simp [ofTokens, List.filterMap_eq_nil_iff, faultOf?_eq_none_iff]

end SyntaxError

namespace Parse

/-- Only words spell keywords. -/
theorem proper_cursor (separator text : List Char) : (cursor separator text).Proper := by
  intro m hm
  obtain ⟨l, -, -, o, b, rfl⟩ := Mark.exists_lexeme_of_mem_read hm
  exact fun hkind => if_neg hkind

/-- The nodes of a syntax tree are whole if those of its outline are. -/
theorem whole_tree_iff (text separator : List Char) :
    Whole Lexeme.sign? (ofText text separator).tree ↔
      Whole Mark.sign? (Outline.script (cursor separator text)).value := by
  obtain ⟨ts, rest, hw, hrest⟩ := exists_weaves_lexemes separator text
  obtain ⟨-, hparse⟩ := ofText_eq hw hrest
  have hsigns : (lexemes text).filterMap Lexeme.sign? =
      (leavesOfList (outlines separator text)).filterMap Mark.sign? ++ [] := by
    have hleaves := Outline.leaves_script (cursor separator text)
    rw [Outline.script, leaves_node] at hleaves
    rw [List.append_nil, outlines, hleaves]
    exact (Mark.filterMap_sign?_read separator true true (lexemes text)).symm
  have hsame := (hw.sameSigns hsigns).1
  rw [hparse, Outline.script, whole_node, whole_node,
    wholeList_append_leaves (allLeaves_map_leaf rest), hsame.whole]
  exact Iff.rfl

/-- An error stands at a token or at the end of the text. -/
def IsPlace (text : List Char) (offset : Nat) : Prop :=
  (∃ t ∈ tokenize text, t.offset = offset) ∨ offset = Utf8.size text

theorem isPlace_offsetAt (text : List Char) (index : Nat) :
    IsPlace text (Token.offsetAt (tokenize text) index) := by
  rw [Token.offsetAt]
  split
  · rename_i t ht
    exact .inl ⟨t, (List.mem_filter.mp (List.mem_of_getElem? ht)).1, rfl⟩
  · exact .inr (finalStop_tokenize text)

/-- **No errors, and nothing is missing.**  A parse has no errors if and only if its tree is
complete.  Its errors are in order of offset, and the offset of each is that of a token or the
end of the text. -/
theorem errors_eq_nil_iff_complete (text separator : List Char) :
    ((ofText text separator).errors = [] ↔ (ofText text separator).tree.Complete) ∧
      ((ofText text separator).errors.Pairwise fun a b => a.offset ≤ b.offset) ∧
      ∀ e ∈ (ofText text separator).errors,
        (∃ t ∈ tokenize text, t.offset = e.offset) ∨ e.offset = Utf8.size text := by
  -- the grammar's errors are the nodes that are not whole, the lexer's the tokens without an end
  have hwhole := whole_tree_iff text separator
  have hproblems := Outline.whole_script (proper_cursor separator text)
  obtain ⟨ts, rest, hw, hrest⟩ := exists_weaves_lexemes separator text
  obtain ⟨-, hparse⟩ := ofText_eq hw hrest
  have hleaves : leaves (ofText text separator).tree = lexemes text := by
    rw [hparse, leaves_node, leavesOfList_append, leavesOfList_map_leaf, ← hw.leaves_eq]
  have hterminated : SyntaxError.ofTokens (tokenize text) = [] ↔
      ∀ l ∈ leaves (ofText text separator).tree, l.kind ∉ Kind.unterminated := by
    rw [SyntaxError.ofTokens_eq_nil_iff, map_toLexeme_tokenize, hleaves]
  have herrors : (ofText text separator).errors = SyntaxError.sort
      ((Outline.script (cursor separator text)).problems.map
        (SyntaxError.ofProblem (tokenize text)) ++ SyntaxError.ofTokens (tokenize text)) := by
    rw [hparse]
  rw [herrors]
  refine ⟨?_, SyntaxError.pairwise_sort _, fun e he => ?_⟩
  · rw [SyntaxError.sort_eq_nil_iff, List.append_eq_nil_iff, List.map_eq_nil_iff, hproblems,
      hterminated, ← hwhole]
    exact ⟨fun h => ⟨h.2, h.1⟩, fun h => ⟨h.whole, h.terminated⟩⟩
  · rw [SyntaxError.sort, List.mem_mergeSort, List.mem_append, List.mem_map] at he
    rcases he with ⟨p, -, rfl⟩ | he
    · exact isPlace_offsetAt text p.index
    · obtain ⟨t, ht, hfault⟩ := List.mem_filterMap.mp he
      obtain ⟨fault, -, rfl⟩ := Option.map_eq_some_iff.mp hfault
      exact .inl ⟨t, ht, rfl⟩

end Parse

end SqlCaret
