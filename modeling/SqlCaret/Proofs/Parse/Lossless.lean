import SqlCaret.Proofs.Outline.Form
import SqlCaret.Proofs.Syntax.Tokens
import SqlCaret.Proofs.Tree.Recorded
import SqlCaret.Proofs.Tree.Rows
import SqlCaret.Syntax.Parse

/-!
# Parse — lossless

A parse never goes wrong: the recorder tells the outline of the script, the events make a tree,
and the tree is that outline woven over all lexemes of the text (`Parse.ofText_eq`).  So the
tree has the form of the grammar and its nodes are tight (`Parse.exists_tree`).

`Parse.lossless` puts together what this keeps of a text: the tokens of the tree are the tokens
of the text, each once and in its place.
-/

namespace SqlCaret

open SqlCaret.Tree

namespace Parse

/-- In front of the first mark of a text. -/
def cursor (separator : List Char) (text : List Char) : Cursor :=
  Cursor.ofMarks (Mark.ofLexemes separator (lexemes text))

/-- The batches of a text and the separators between them. -/
def outlines (separator : List Char) (text : List Char) : List Outline :=
  (Outline.batches ((cursor separator text).ahead.length + 1) (cursor separator text)).value

/-- The recorder once it has been told the whole script. -/
def recorded (separator : List Char) (text : List Char) : Recorder where
  cursor := (Outline.script (cursor separator text)).rest
  events := (events Mark.kind (.node .script (outlines separator text))).toArray

@[simp] theorem map_toLexeme_tokenize (text : List Char) :
    (tokenize text).map Token.toLexeme = lexemes text := by
  rw [tokenize, Token.map_toLexeme_place]

theorem recorder_tokenize (separator text : List Char) :
    recorder separator (tokenize text) = { cursor := cursor separator text } := by
  rw [recorder, map_toLexeme_tokenize]
  rfl

/-- The recorder is told the whole script. -/
theorem tell_script (separator text : List Char) :
    (recorder separator (tokenize text)).tell (Outline.script (cursor separator text)).value =
      some (recorded separator text) := by
  rw [recorder_tokenize,
    Recorder.tell_eq _ _ _ (Outline.consumes_script (cursor separator text))]
  simp [recorded, Outline.script, outlines]

/-- The leaves of the outline are as many as the significant lexemes and of the same kinds. -/
theorem significantKinds_lexemes (separator text : List Char) :
    significantKinds (lexemes text) =
      (leavesOfList (outlines separator text)).map Mark.kind := by
  have h := Outline.leaves_script (cursor separator text)
  rw [Outline.script, leaves_node] at h
  rw [outlines, h]
  exact (Mark.map_kind_read separator true true (lexemes text)).symm

/-- The kinds of significant tokens are those of significant lexemes. -/
theorem significantKinds_significant (ts : List Token) :
    (Token.significant ts).map (·.kind) = significantKinds (ts.map Token.toLexeme) := by
  rw [significantKinds, List.filter_map, List.map_map]
  rfl

/-- Lexemes without a significant one are white space and comments. -/
theorem trivia_of_significantKinds_eq_nil {ls : List Lexeme} (h : significantKinds ls = []) :
    ∀ l ∈ ls, l.kind.isTrivia = true := by
  simpa [significantKinds] using h

/-- **The tree is the outline woven over the text.**  No step of the recorder fails, nor one of
the tree that is made from its events. -/
theorem ofText_eq {separator text : List Char} {ts : List SyntaxTree} {rest : List Lexeme}
    (h : Weaves Mark.kind (outlines separator text) (lexemes text) ts rest)
    (hrest : ∀ l ∈ rest, l.kind.isTrivia = true) :
    Tree.ofEvents? (lexemes text) (recorded separator text).events.toList =
        some (.node .script (ts ++ rest.map .leaf)) ∧
      Parse.ofText text separator =
        ⟨.node .script (ts ++ rest.map .leaf), SyntaxError.sort
          ((Outline.script (cursor separator text)).problems.map
            (SyntaxError.ofProblem (tokenize text)) ++ SyntaxError.ofTokens (tokenize text))⟩ := by
  have htree : Tree.ofEvents? (lexemes text) (recorded separator text).events.toList =
      some (.node .script (ts ++ rest.map .leaf)) := h.ofEvents?_eq .script hrest
  refine ⟨htree, ?_⟩
  have hrecord : record (tokenize text) (recorder separator (tokenize text)) =
      some (.node .script (ts ++ rest.map .leaf),
        (Outline.script (cursor separator text)).problems) := by
    have hcursor : (recorder separator (tokenize text)).cursor = cursor separator text := by
      rw [recorder_tokenize]
    rw [record, hcursor, tell_script, Option.bind_some, map_toLexeme_tokenize, htree]
    rfl
  rw [Parse.ofText]
  simp only [hrecord]

/-- There is such a weaving for every text. -/
theorem exists_weaves_lexemes (separator text : List Char) :
    ∃ ts rest, Weaves Mark.kind (outlines separator text) (lexemes text) ts rest ∧
      ∀ l ∈ rest, l.kind.isTrivia = true := by
  have hkinds : significantKinds (lexemes text) =
      (leavesOfList (outlines separator text)).map Mark.kind ++ [] := by
    rw [significantKinds_lexemes separator, List.append_nil]
  obtain ⟨ts, rest, hw, hrest⟩ := exists_weaves _ _ [] hkinds
  exact ⟨ts, rest, hw, trivia_of_significantKinds_eq_nil hrest⟩

/-- The errors are those of the grammar and those of the tokens, in order. -/
theorem errors_eq (text separator : List Char) :
    (ofText text separator).errors = SyntaxError.sort
      ((Outline.script (cursor separator text)).problems.map
        (SyntaxError.ofProblem (tokenize text)) ++ SyntaxError.ofTokens (tokenize text)) := by
  obtain ⟨ts, rest, hw, hrest⟩ := exists_weaves_lexemes separator text
  obtain ⟨-, hparse⟩ := ofText_eq hw hrest
  rw [hparse]

/-- The children of a script's outline are formed, batches with a separator between each two. -/
theorem outlines_form (separator text : List Char) :
    Kind.alternate (nodeKinds (outlines separator text)) = true ∧
      FormedList (outlines separator text) := by
  obtain ⟨hkinds, -, hform⟩ := formed_node.mp (Outline.formed_script (cursor separator text))
  exact ⟨hkinds, hform⟩

/-- **The tree of a text** is a formed script with tight nodes over the lexemes of the text. -/
theorem exists_tree (text separator : List Char) :
    ∃ ts, (Parse.ofText text separator).tree = .node .script ts ∧
      Tree.ofEvents? (lexemes text) (recorded separator text).events.toList =
        some (.node .script ts) ∧
      leavesOfList ts = lexemes text ∧ Kind.alternate (nodeKinds ts) = true ∧
      FormedList ts ∧ TightList ts := by
  obtain ⟨ts, rest, hw, hrest⟩ := exists_weaves_lexemes separator text
  obtain ⟨hevents, hparse⟩ := ofText_eq hw hrest
  obtain ⟨hkinds, hform⟩ := outlines_form separator text
  have hleaves := allLeaves_map_leaf rest
  refine ⟨_, by rw [hparse], hevents, ?_, ?_, ?_, ?_⟩
  · rw [leavesOfList_append, leavesOfList_map_leaf, ← hw.leaves_eq]
  · rw [nodeKinds_append, hleaves.nodeKinds_eq, List.append_nil, hw.nodeKinds_eq, hkinds]
  · exact (formedList_append _ _).mpr ⟨hw.formedList hform, hleaves.formedList⟩
  · exact (tightList_append _ _).mpr ⟨hw.tightList hform, tightList_map_leaf rest⟩

end Parse

/-- **Parsing is lossless.**  The recorder takes every marker it gave out, the tree is made
without a failing step, and it is the tree of the parse.  Its tokens are those of the text with
their kinds, texts and offsets, so its text is the text.  Its root holds batches with a
separator between each two.  The events name each significant token once and begin and end one
root. -/
theorem Parse.lossless (text separator : List Char) :
    ∃ (r : Recorder) (ts : List SyntaxTree),
      (recorder separator (tokenize text)).tell
          (Outline.script (recorder separator (tokenize text)).cursor).value = some r ∧
        Tree.ofEvents? (lexemes text) r.events.toList = some (.node .script ts) ∧
        (Parse.ofText text separator).tree = .node .script ts ∧
        (Tree.rows 0 0 (.node .script ts)).filterMap Tree.Row.token? = tokenize text ∧
        (Tree.leavesOfList ts).flatMap (·.text) = text ∧
        Kind.alternate (Tree.nodeKinds ts) = true ∧
        Event.tokens r.events.toList = (Token.significant (tokenize text)).map (·.kind) ∧
        Event.oneRoot r.events.toList = true := by
  obtain ⟨ts, htree, hevents, hleaves, hkinds, -, -⟩ := exists_tree text separator
  refine ⟨recorded separator text, ts, ?_, hevents, htree, ?_, ?_, hkinds, ?_, ?_⟩
  · have hcursor : (recorder separator (tokenize text)).cursor = cursor separator text := by
      rw [recorder_tokenize]
    rw [hcursor, tell_script]
  · rw [tokens_rows, leaves_node, hleaves]
    rfl
  · rw [hleaves, flatMap_text_lexemes]
  · have htokens : Event.tokens (recorded separator text).events.toList =
        (leavesOfList (outlines separator text)).map Mark.kind := by
      rw [← leaves_node .script, ← tokens_events]
      rfl
    rw [htokens, ← significantKinds_lexemes, significantKinds_significant,
      map_toLexeme_tokenize]
  · exact oneRoot_events Mark.kind .script (outlines separator text)

end SqlCaret
