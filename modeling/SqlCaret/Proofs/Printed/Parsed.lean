import SqlCaret.Proofs.Parse.Lossless
import SqlCaret.Proofs.Printed.Statements
import SqlCaret.Proofs.Printed.Woven
import SqlCaret.Statement.Parsed

/-!
# Printed — parsed

**Parsing undoes printing** (`ParsedScript.ofText_scriptText`): the parse of printed batches has no
errors, its batches are those that were printed, and every statement has the span of its text.

The tree is known from the grammar's reading (`clean_batches`) and the weaving over the lexemes
(`weaves_script`).  There are no errors since the reading met no problem and no lexeme of the
text is unterminated (`faultOf?_lexemes`).
-/

namespace SqlCaret

open SqlCaret.Tree

namespace Printed

/-! ### No errors -/

theorem faultOf?_of_mem_blankKinds {k : Kind} (h : k ∈ blankKinds) :
    SyntaxError.faultOf? k = none := by
  cases k <;> first | rfl | exact absurd h (by decide)

theorem Spaced.faultOf? {ls : List Lexeme} {ws : List Word} (h : Spaced ls ws) :
    ∀ l ∈ ls, SyntaxError.faultOf? l.kind = none := by
  induction h with
  | nil => simp
  | blank hl _ ih => exact List.forall_mem_cons.mpr ⟨faultOf?_of_mem_blankKinds hl, ih⟩
  | word w _ ih => exact List.forall_mem_cons.mpr ⟨by cases w <;> rfl, ih⟩

/-- No lexeme of a script is unterminated. -/
theorem faultOf?_lexemes {bs : List Batch} (hne : bs ≠ []) :
    ∀ l ∈ lexemes (scriptText bs), SyntaxError.faultOf? l.kind = none := by
  induction bs with
  | nil => exact absurd rfl hne
  | cons b bs ih =>
      have hb := (spaced_batch b).faultOf?
      cases bs with
      | nil =>
          rw [scriptText_singleton, lexemes_batch_alone]
          exact hb
      | cons b' bs =>
          rw [lexemes_scriptText]
          refine List.forall_mem_append.mpr ⟨hb, ?_⟩
          refine List.forall_mem_cons.mpr ⟨rfl, List.forall_mem_cons.mpr ⟨rfl, ?_⟩⟩
          exact List.forall_mem_cons.mpr ⟨rfl, ih (List.cons_ne_nil _ _)⟩

theorem ofTokens_tokenize {text : List Char}
    (h : ∀ l ∈ lexemes text, SyntaxError.faultOf? l.kind = none) :
    SyntaxError.ofTokens (tokenize text) = [] := by
  rw [← Parse.map_toLexeme_tokenize, List.forall_mem_map] at h
  rw [SyntaxError.ofTokens, List.filterMap_eq_nil_iff]
  intro t ht
  rw [show SyntaxError.faultOf? t.kind = none from h t ht]
  rfl

/-! ### The parse -/

/-- **The parse of printed batches.** -/
theorem parse_scriptText {bs : List Batch} (hne : bs ≠ []) (hu : ∀ b ∈ bs, b.unambiguous = true) :
    Parse.ofText (scriptText bs) defaultSeparator = ⟨.node .script (scriptTrees bs), []⟩ := by
  have hahead : (Parse.cursor defaultSeparator (scriptText bs)).ahead =
      Mark.read defaultSeparator true true (lexemes (scriptText bs)) := rfl
  obtain ⟨c', hvalue, hproblems, -⟩ := clean_batches hne hu (Nat.lt_succ_self _) hahead
  -- the outline is known up to its kinds, and no more is asked of it
  have hw : Weaves Mark.kind (Parse.outlines defaultSeparator (scriptText bs))
      (lexemes (scriptText bs)) (scriptTrees bs) [] := (weaves_script hne).of_kinds hvalue
  obtain ⟨-, hparse⟩ := Parse.ofText_eq hw (by simp)
  have hscript : (Outline.script (Parse.cursor defaultSeparator (scriptText bs))).problems = [] :=
    hproblems
  rw [hparse, hscript, ofTokens_tokenize (faultOf?_lexemes hne)]
  simp [SyntaxError.sort]

/-! ### The statements -/

section
variable (ix : LineIndex)

theorem ofTrees_batch (b : Batch) (start : Nat) :
    Statement.ofTrees ix start b.trees = b.statements ix start := by
  cases b with
  | empty => rw [Batch.trees, Statement.ofTrees, Batch.statements]
  | some first others =>
      rw [Batch.trees, ofTrees_cons_tree, ofTree_tree, ofTrees_row, Batch.statements]

/-- A batch and the separator line behind it. -/
theorem batchesOf_line (b : Batch) (start : Nat) (ts : List SyntaxTree) :
    Script.batchesOf ix start (b.line ++ ts) =
      b.statements ix start ::
        Script.batchesOf ix (start + Utf8.size b.text + Utf8.size goLine) ts := by
  have hline : Utf8.size lineEnd.text = 1 := by decide
  have hgo : Utf8.size go.text = 2 := by decide
  have hgoLine : Utf8.size goLine = 4 := by decide
  have hb := ofTrees_batch ix b
  have hsize := sizeOfList_batch b
  cases b with
  | empty =>
      simp [Batch.line, Script.batchesOf, Statement.ofTrees, Batch.statements, Batch.text, hline,
        hgo, hgoLine, Nat.add_assoc]
  | some first others =>
      rw [Batch.trees] at hb hsize
      simp only [Batch.line, List.cons_append, List.nil_append, Script.batchesOf, hb, hsize,
        size_node, size_leaf, sizeOfList_cons, sizeOfList_nil, hline, hgo, hgoLine, Nat.add_assoc]

/-- **The batches of a script's tree are those that were printed.** -/
theorem batchesOf_scriptTrees (bs : List Batch) (start : Nat) :
    Script.batchesOf ix start (scriptTrees bs) = scriptStatements ix start bs := by
  induction bs generalizing start with
  | nil => rfl
  | cons b bs ih =>
      cases bs with
      | nil => simp [scriptTrees, Script.batchesOf, ofTrees_batch, scriptStatements]
      | cons b' bs =>
          rw [scriptTrees, batchesOf_line, ih]
          rfl

theorem printedIn_batch (b : Batch) (start : Nat) {s : Statement}
    (h : s ∈ Statement.preorderOfList (b.statements ix start)) : PrintedIn ix b.text start s := by
  cases b with
  | empty =>
      rw [Batch.statements, Statement.preorderOfList] at h
      cases h
  | some first others =>
      rw [Batch.statements, Statement.preorderOfList, List.mem_append] at h
      rcases h with h | h
      · exact (printedIn_statement ix first _ h).within [] others.text rfl rfl
      · refine (printedIn_row ix others _ h).within first.text [] ?_ rfl
        rw [List.append_nil, Batch.text]

/-- Every statement of a script is that of something printed in its text. -/
theorem printedIn_script (bs : List Batch) (start : Nat) {s : Statement}
    (h : s ∈ Statement.preorderOfList (scriptStatements ix start bs).flatten) :
    PrintedIn ix (scriptText bs) start s := by
  induction bs generalizing start with
  | nil =>
      simp [scriptStatements, Statement.preorderOfList] at h
  | cons b bs ih =>
      rw [scriptStatements, List.flatten_cons, Statement.preorderOfList_append,
        List.mem_append] at h
      cases bs with
      | nil =>
          rw [scriptText_singleton]
          refine printedIn_batch ix b start (h.resolve_right ?_)
          simp [scriptStatements, Statement.preorderOfList]
      | cons b' bs =>
          rw [scriptText_cons_cons]
          rcases h with h | h
          · exact (printedIn_batch ix b start h).within [] _ rfl rfl
          · refine (ih _ h).within (b.text ++ goLine) [] ?_ ?_
            · simp
            · simp [Nat.add_assoc]

end

end Printed

/-- **Parsing undoes printing.**  The text of batches in which every `ELSE` is unambiguous parses
without errors, to the batches that were printed, statement by statement.  And every statement of
the parse is that of something printed in the text, its span the place of what was printed. -/
theorem ParsedScript.ofText_scriptText {bs : List Printed.Batch} (hne : bs ≠ [])
    (hu : ∀ b ∈ bs, b.unambiguous = true) :
    ParsedScript.ofText (Printed.scriptText bs) defaultSeparator =
        ⟨⟨Printed.scriptStatements (LineIndex.ofText (Printed.scriptText bs)) 0 bs⟩, []⟩ ∧
      ∀ s ∈ Statement.preorderOfList
          (ParsedScript.ofText (Printed.scriptText bs) defaultSeparator).script.topLevel,
        ∃ (q : Printed) (before behind : List Char),
          Printed.scriptText bs = before ++ (q.text ++ behind) ∧
          s = q.statement (LineIndex.ofText (Printed.scriptText bs)) (Utf8.size before) ∧
          s.span = Statement.spanOf (LineIndex.ofText (Printed.scriptText bs))
            (Utf8.size before) (Utf8.size q.text) := by
  have hparse : ParsedScript.ofText (Printed.scriptText bs) defaultSeparator =
      ⟨⟨Printed.scriptStatements (LineIndex.ofText (Printed.scriptText bs)) 0 bs⟩, []⟩ := by
    rw [ParsedScript.ofText]
    simp only [Printed.parse_scriptText hne hu, Script.ofTree, Tree.children,
      Printed.batchesOf_scriptTrees, List.map_nil]
  refine ⟨hparse, ?_⟩
  rw [hparse]
  intro s hs
  obtain ⟨q, before, behind, htext, rfl⟩ := Printed.printedIn_script _ bs 0 hs
  rw [Nat.zero_add]
  exact ⟨q, before, behind, htext, rfl, Printed.span_statement _ q _⟩

/-- One space. -/
def Printed.space : Printed.Gap := ⟨⟨[' '], .space rfl .nil⟩, List.cons_ne_nil _ _⟩

/-- An `IF` with both branches, and an empty batch behind it. -/
def Printed.twoBranches : List Printed.Batch :=
  [.some (.ifElse ⟨space, space, space⟩ space (.simple space none) space space
    (.block (.cons space (.simple space (some ⟨[], .nil⟩)) .nil) space)) .nil, .empty]

/-- Both branches are found, and the empty batch. -/
theorem ParsedScript.ofText_twoBranches :
    Printed.scriptText Printed.twoBranches =
        "IF 1 = 1 PRINT 1 ELSE BEGIN PRINT 1; END\nGO\n".toList ∧
      Printed.twoBranches ≠ [] ∧ (∀ b ∈ Printed.twoBranches, b.unambiguous = true) ∧
      ParsedScript.ofText (Printed.scriptText Printed.twoBranches) defaultSeparator =
        ⟨⟨[[.conditional ⟨⟨1, 0⟩, ⟨1, 40⟩⟩ (some (.simple ⟨⟨1, 9⟩, ⟨1, 16⟩⟩))
          (some (.block ⟨⟨1, 22⟩, ⟨1, 40⟩⟩ [.simple ⟨⟨1, 28⟩, ⟨1, 36⟩⟩]))], []]⟩, []⟩ := by
  have hne : Printed.twoBranches ≠ [] := List.cons_ne_nil _ _
  have hu : ∀ b ∈ Printed.twoBranches, b.unambiguous = true := by decide
  refine ⟨by decide, hne, hu, ?_⟩
  rw [(ofText_scriptText hne hu).1]
  rfl

end SqlCaret
