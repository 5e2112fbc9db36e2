import SqlCaret.Proofs.Parse.Lossless
import SqlCaret.Proofs.Statement.OfTree
import SqlCaret.Statement.Parsed

/-!
# Statement — parsed

What a reader of statements may rely on in the parse of any text, well formed or not.  Each
statement is a node of the syntax tree that begins and ends with a significant token
(`ParsedScript.exists_row_of_mem_walk`), and statements nest and follow one another
(`ParsedScript.fits`).  `ParsedScript.wellFormed` puts the two together.
-/

namespace SqlCaret

open SqlCaret.Tree

/-- The row is that of a node that becomes a statement. -/
def Tree.Row.IsStatement (r : Row) : Prop := r.text = none ∧ r.kind.isStatement = true

/-- What the row covers of a text is `inside`: not nothing, and at just the bytes of the row. -/
def Tree.Row.IsText (text : List Char) (r : Row) (inside : List Char) : Prop :=
  inside ≠ [] ∧ ∃ before behind, text = before ++ (inside ++ behind) ∧
    Utf8.size before = r.start ∧ Utf8.size before + Utf8.size inside = r.stop

/-- The rows of the syntax tree of a text. -/
def Parse.rows (text separator : List Char) : List Row :=
  Tree.rows 0 0 (Parse.ofText text separator).tree

namespace ParsedScript

theorem topLevel_eq {text separator : List Char} {ts : List SyntaxTree}
    (htree : (Parse.ofText text separator).tree = .node .script ts) :
    (ofText text separator).script.topLevel =
      (Script.batchesOf (LineIndex.ofText text) 0 ts).flatten := by
  simp only [ofText, Script.ofTree, Script.topLevel, htree, Tree.children]

/-- **The statements of a script fit**, one after the other through all of its batches. -/
theorem fits (text separator : List Char) :
    ∃ hi, Statement.Fits (Statement.OfRow (LineIndex.ofText text) (Parse.rows text separator))
      ((LineIndex.ofText text).point 0) hi (ofText text separator).script.topLevel := by
  obtain ⟨ts, htree, -, -, -, hform, -⟩ := Parse.exists_tree text separator
  have hix : ∀ m n, m ≤ n →
      (LineIndex.ofText text).point m ≤ (LineIndex.ofText text).point n :=
    fun m n h => LineIndex.point_le_point text h
  have h := Statement.fits_batchesOf hix 1 0 hform
  have hrows : rowsOfList 1 0 ts ⊆ Parse.rows text separator := by
    rw [Parse.rows, htree, rows_node]
    exact List.subset_cons_self _ _
  rw [topLevel_eq htree]
  exact ⟨_, h.imp fun s => Statement.OfRow.mono hrows⟩

/-- **A statement row covers text from token to token**: it begins where a significant token
does and ends where one does, with some text in between. -/
theorem exists_text_of_row {text separator : List Char} {r : Row}
    (hr : r ∈ Parse.rows text separator) (hs : r.IsStatement) :
    (∃ t ∈ Token.significant (tokenize text), t.offset = r.start) ∧
      (∃ t ∈ Token.significant (tokenize text), t.stop = r.stop) ∧
      ∃ inside, r.IsText text inside := by
  obtain ⟨ts, htree, -, hleaves, -, -, htight⟩ := Parse.exists_tree text separator
  rw [Parse.rows, htree] at hr
  have hinner : r.kind.isInner = true :=
    Kind.isInner_of_isItem (by rw [Kind.isItem, hs.2, Bool.true_or])
  obtain ⟨ms, hcovers, hends⟩ := exists_covered 0 0 (.node .script ts)
    (tight_node.mpr ⟨fun h => absurd h (by decide), htight⟩) r hr hs.1
  rw [leaves_node, hleaves] at hcovers
  obtain ⟨hfirst, hlast, hne⟩ := hcovers.significant (hends hinner)
  obtain ⟨before, behind, hls, hstart, hstop⟩ := hcovers
  refine ⟨hfirst, hlast, ms.flatMap (·.text), hne, before.flatMap (·.text),
    behind.flatMap (·.text), ?_, by rw [hstart, Nat.zero_add], ?_⟩
  · have h := flatMap_text_lexemes text
    rw [hls, List.flatMap_append, List.flatMap_append] at h
    exact h.symm
  · rw [hstop, hstart, Nat.zero_add]

/-- The points of a statement row are in order. -/
theorem point_start_lt_point_stop {text separator : List Char} {r : Row}
    (hr : r ∈ Parse.rows text separator) (hs : r.IsStatement) :
    (LineIndex.ofText text).point r.start < (LineIndex.ofText text).point r.stop := by
  obtain ⟨-, -, inside, hne, before, behind, rfl, hstart, hstop⟩ := exists_text_of_row hr hs
  rw [← hstart, ← hstop]
  exact LineIndex.point_lt_point before hne behind

/-- Every statement of a parse has the span of a statement row. -/
theorem exists_row_of_mem_walk {text separator : List Char} {s : Statement}
    (hs : s ∈ (ofText text separator).script.walk) :
    ∃ r ∈ Parse.rows text separator, r.IsStatement ∧
      s.span = ⟨(LineIndex.ofText text).point r.start, (LineIndex.ofText text).point r.stop⟩ := by
  obtain ⟨hi, hfits⟩ := fits text separator
  obtain ⟨⟨r, hr, htext, hkind, hspan⟩, -⟩ := hfits.of_mem_visit hs
  exact ⟨r, hr, ⟨htext, hkind⟩, hspan⟩

/-- **Parsed scripts are well formed.**  Whatever the text, the script passes every check.  Each
statement, however deep, has the span of a node of the syntax tree that starts where a
significant token does and stops where one does, so that it is not empty; its children lie
inside, one after the other.  So do the statements of all batches, taken together. -/
theorem wellFormed (text separator : List Char) :
    (ofText text separator).script.validate = .ok () ∧
      (∀ s ∈ (ofText text separator).script.walk,
        (∃ r ∈ Parse.rows text separator, r.IsStatement ∧
          s.span =
            ⟨(LineIndex.ofText text).point r.start, (LineIndex.ofText text).point r.stop⟩ ∧
          (∃ t ∈ Token.significant (tokenize text), t.offset = r.start) ∧
          ∃ t ∈ Token.significant (tokenize text), t.stop = r.stop) ∧
        s.span.start < s.span.stop ∧
        (∀ c ∈ s.children, s.span.containsSpan c.span = true) ∧
        s.children.Pairwise fun a b => a.span.stop ≤ b.span.start) ∧
      (ofText text separator).script.topLevel.Pairwise
        fun a b => a.span.stop ≤ b.span.start := by
  obtain ⟨hi, hfits⟩ := fits text separator
  refine ⟨hfits.validateBatches_eq, fun s hs => ?_, hfits.pairwise⟩
  obtain ⟨r, hr, hrow, hspan⟩ := exists_row_of_mem_walk hs
  obtain ⟨hfirst, hlast, -⟩ := exists_text_of_row hr hrow
  obtain ⟨-, hchildren⟩ := hfits.of_mem_visit hs
  refine ⟨⟨r, hr, hrow, hspan, hfirst, hlast⟩, ?_, hchildren.containsSpan, hchildren.pairwise⟩
  rw [hspan]
  exact point_start_lt_point_stop hr hrow

end ParsedScript

end SqlCaret
