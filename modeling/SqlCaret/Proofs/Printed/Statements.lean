import SqlCaret.Proofs.Printed.Lexed
import SqlCaret.Proofs.Statement.OfTree
import SqlCaret.Statement.Walk

/-!
# Printed — statements

The statements of the trees of printed statements are the statements that were printed
(`ofTree_tree`), and those of a script's tree are its batches (`batchesOf_scriptTrees`).  A tree
covers as many bytes as were printed for it (`size_tree`), so every span is right as soon as the
trees in front are counted.
-/

namespace SqlCaret

open SqlCaret.Tree

namespace Printed

/-! ### Sizes -/

/-- Trees in a row have the bytes of both. -/
theorem sizeOfList_append (ts us : List SyntaxTree) :
    sizeOfList (ts ++ us) = sizeOfList ts + sizeOfList us := by
  induction ts with
  | nil => simp
  | cons t ts ih => simp [ih, Nat.add_assoc]

/-- A tree over the lexemes of a text is as large as the text. -/
theorem sizeOfList_of_lexemes {text : List Char} {ts : List SyntaxTree}
    (h : lexemes (text ++ []) = leavesOfList ts ++ lexemes []) :
    sizeOfList ts = Utf8.size text := by
  have hnil : lexemes [] = [] := by simp [lexemes, Lexeme.scan]
  rw [hnil, List.append_nil, List.append_nil] at h
  rw [sizeOfList_eq, ← h, flatMap_text_lexemes]

@[simp] theorem sizeOfList_leaves (b : Blank) : sizeOfList b.leaves = b.size := by
  rw [sizeOfList_eq, Blank.leaves, leavesOfList_map_leaf, flatMap_text_lexemes]
  rfl

@[simp] theorem sizeOfList_condition (c : Condition) : sizeOfList c.trees = c.size :=
  sizeOfList_of_lexemes (lexemes_condition c endsWord_nil)

/-- **A tree covers the bytes that were printed for it.** -/
@[simp] theorem size_tree (p : Printed) : Tree.size p.tree = p.size := by
  have h : sizeOfList [p.tree] = Utf8.size p.text := by
    refine sizeOfList_of_lexemes ?_
    rw [lexemes_tree p endsWord_nil]
    simp
  rw [sizeOfList_cons, sizeOfList_nil, Nat.add_zero] at h
  exact h

@[simp] theorem sizeOfList_section (w : Word) (s : Section) :
    sizeOfList (s.trees w) = s.size w :=
  sizeOfList_of_lexemes (lexemes_section w s endsWord_nil)

/-- The trees of a batch have the bytes that were printed. -/
theorem sizeOfList_batch (b : Batch) : sizeOfList b.trees = Utf8.size b.text :=
  sizeOfList_of_lexemes (lexemes_batch b endsWord_nil)

/-! ### White space and words have no statements -/

section
variable (ix : LineIndex) (start : Nat) (ts : List SyntaxTree)

/-- A function on trees in a row that passes over leaves. -/
def Skips {α : Type} (f : Nat → List SyntaxTree → α) : Prop :=
  ∀ (start : Nat) (l : Lexeme) (ts : List SyntaxTree),
    f start (.leaf l :: ts) = f (start + Utf8.size l.text) ts

/-- A token becomes no statement. -/
theorem skips_ofTrees : Skips (Statement.ofTrees ix) := fun _ _ _ => by
  rw [Statement.ofTrees]

theorem skips_first? : Skips (Statement.first? ix) := fun _ _ _ => by
  rw [Statement.first?]

theorem skips_elseBranch? : Skips (Statement.elseBranch? ix) := fun _ _ _ => by
  rw [Statement.elseBranch?]

namespace Skips

variable {α : Type} {f : Nat → List SyntaxTree → α}

/-- Behind a word the next tree starts as many bytes further on. -/
theorem word (hf : Skips f) (w : Word) (start : Nat) (ts : List SyntaxTree) :
    f start (w.leaf :: ts) = f (start + w.size) ts :=
  hf start w.lexeme ts

theorem map_leaf (hf : Skips f) (ls : List Lexeme) (start : Nat) (ts : List SyntaxTree) :
    f start (ls.map .leaf ++ ts) = f (start + sizeOfList (ls.map .leaf)) ts := by
  induction ls generalizing start with
  | nil => simp
  | cons l ls ih =>
      rw [List.map_cons, List.cons_append, hf, ih, sizeOfList_cons, size_leaf, Nat.add_assoc]

theorem gap (hf : Skips f) (b : Blank) (start : Nat) (ts : List SyntaxTree) :
    f start (b.leaves ++ ts) = f (start + b.size) ts := by
  rw [Blank.leaves, hf.map_leaf, ← Blank.leaves, sizeOfList_leaves]

/-- A condition has no statements either. -/
theorem condition (hf : Skips f)
    (hnode : ∀ (start : Nat) (cs ts : List SyntaxTree),
      f start (.node .condition cs :: ts) = f (start + sizeOfList cs) ts)
    (c : Condition) (start : Nat) (ts : List SyntaxTree) :
    f start (c.trees ++ ts) = f (start + c.size) ts := by
  have hsize := sizeOfList_condition c
  rw [Condition.trees, sizeOfList_append, sizeOfList_leaves, sizeOfList_cons, size_node,
    sizeOfList_nil, Nat.add_zero] at hsize
  rw [Condition.trees, List.append_assoc, hf.gap, List.singleton_append, hnode, Nat.add_assoc,
    hsize]

end Skips

/-- A condition is not taken for the statement behind it. -/
theorem first?_condition (c : Condition) :
    Statement.first? ix start (c.trees ++ ts) = Statement.first? ix (start + c.size) ts :=
  (skips_first? ix).condition (fun _ _ _ => by rw [Statement.first?]; rfl) c start ts

/-- A condition is not taken for a branch. -/
theorem elseBranch?_condition (c : Condition) :
    Statement.elseBranch? ix start (c.trees ++ ts) = Statement.elseBranch? ix (start + c.size) ts :=
  (skips_elseBranch? ix).condition (fun _ _ _ => by rw [Statement.elseBranch?]; rfl) c start ts

/-! ### Statements -/

/-- A printed statement is a node of a statement kind, as large as what was printed. -/
theorem exists_node (p : Printed) :
    ∃ k cs, p.tree = .node k cs ∧ k.isStatement = true ∧ k ≠ .elseClause ∧
      sizeOfList cs = p.size := by
  have hsize : ∀ {k cs}, p.tree = .node k cs → sizeOfList cs = p.size := by
    intro k cs h
    rw [← size_tree, h, size_node]
  cases p with
  | simple gap semicolon =>
      cases semicolon <;>
        exact ⟨.statement, _, tree.eq_def _, rfl, by decide, hsize (tree.eq_def _)⟩
  | block => exact ⟨.block, _, tree.eq_def _, rfl, by decide, hsize (tree.eq_def _)⟩
  | tryCatch => exact ⟨.tryCatch, _, tree.eq_def _, rfl, by decide, hsize (tree.eq_def _)⟩
  | ifThen => exact ⟨.ifStatement, _, tree.eq_def _, rfl, by decide, hsize (tree.eq_def _)⟩
  | ifElse => exact ⟨.ifStatement, _, tree.eq_def _, rfl, by decide, hsize (tree.eq_def _)⟩
  | loop => exact ⟨.whileStatement, _, tree.eq_def _, rfl, by decide, hsize (tree.eq_def _)⟩

/-- The tree of a statement becomes a statement. -/
theorem ofTrees_cons_tree (p : Printed) :
    Statement.ofTrees ix start (p.tree :: ts) =
      Statement.ofTree ix start p.tree :: Statement.ofTrees ix (start + p.size) ts := by
  obtain ⟨k, cs, htree, hk, -, hsize⟩ := p.exists_node
  rw [htree, Statement.ofTrees, if_pos hk, hsize]
  rfl

/-- The first statement is the one that comes first. -/
theorem first?_cons_tree (p : Printed) :
    Statement.first? ix start (p.tree :: ts) = some (Statement.ofTree ix start p.tree) := by
  obtain ⟨k, cs, htree, hk, -, -⟩ := p.exists_node
  rw [htree, Statement.first?, if_pos hk]

/-- The statement of an `IF` is not taken for that of `ELSE`. -/
theorem elseBranch?_cons_tree (p : Printed) :
    Statement.elseBranch? ix start (p.tree :: ts) =
      Statement.elseBranch? ix (start + p.size) ts := by
  obtain ⟨k, cs, htree, -, hk, hsize⟩ := p.exists_node
  rw [htree, Statement.elseBranch?, if_neg hk, hsize]

end

section
variable (ix : LineIndex)

mutual

/-- **The statement of a printed statement's tree is the statement that was printed.** -/
theorem ofTree_tree : ∀ (p : Printed) (start : Nat),
    Statement.ofTree ix start p.tree = p.statement ix start
  | simple gap none, start => by
      simp only [tree, Statement.ofTree, statement]
      rw [← size_tree, tree, size_node]
  | simple gap (some blank), start => by
      simp only [tree, Statement.ofTree, statement]
      rw [← size_tree, tree, size_node]
  | block inner last, start => by
      rw [statement, ← size_tree (block inner last), tree, size_node, Statement.ofTree,
        (skips_ofTrees ix).word, Statement.ofTrees_append, ofTrees_row inner,
        (skips_ofTrees ix).gap, (skips_ofTrees ix).word, Statement.ofTrees, List.append_nil]
  | tryCatch tried gap caught, start => by
      rw [statement, ← size_tree (tryCatch tried gap caught), tree, size_node, Statement.ofTree,
        Statement.ofTrees_append, ofTrees_section .TRY tried, (skips_ofTrees ix).gap,
        ofTrees_section .CATCH caught, sizeOfList_section]
  | ifThen condition gap yes, start => by
      rw [statement, ← size_tree (ifThen condition gap yes), tree, size_node, Statement.ofTree,
        (skips_first? ix).word, first?_condition, (skips_first? ix).gap, first?_cons_tree,
        ofTree_tree yes, (skips_elseBranch? ix).word, elseBranch?_condition,
        (skips_elseBranch? ix).gap, elseBranch?_cons_tree, Statement.elseBranch?]
  | ifElse condition gap yes before after no, start => by
      -- the second branch hangs in a node of its own, which starts with `ELSE`
      have hno : ∀ start, Statement.elseBranch? ix start
          [.node .elseClause (Word.ELSE.leaf :: (after.leaves ++ [no.tree]))] =
            some (no.statement ix (start + Word.ELSE.size + after.size)) := by
        intro start
        rw [Statement.elseBranch?, if_pos rfl, (skips_first? ix).word, (skips_first? ix).gap,
          first?_cons_tree, ofTree_tree no]
      rw [statement, ← size_tree (ifElse condition gap yes before after no), tree, size_node,
        Statement.ofTree, (skips_first? ix).word, first?_condition, (skips_first? ix).gap,
        first?_cons_tree, ofTree_tree yes, (skips_elseBranch? ix).word, elseBranch?_condition,
        (skips_elseBranch? ix).gap, elseBranch?_cons_tree, (skips_elseBranch? ix).gap, hno]
  | loop condition gap body, start => by
      rw [statement, ← size_tree (loop condition gap body), tree, size_node, Statement.ofTree,
        (skips_first? ix).word, first?_condition, (skips_first? ix).gap, first?_cons_tree,
        ofTree_tree body]

theorem ofTrees_section (w : Word) : ∀ (s : Section) (start : Nat),
    Statement.ofTrees ix start (s.trees w) = s.statements ix w start
  | .mk opening inner last closing, start => by
      rw [Section.trees, Section.statements, (skips_ofTrees ix).word, (skips_ofTrees ix).gap,
        (skips_ofTrees ix).word, Statement.ofTrees_append, ofTrees_row inner,
        (skips_ofTrees ix).gap, (skips_ofTrees ix).word, (skips_ofTrees ix).gap,
        (skips_ofTrees ix).word, Statement.ofTrees, List.append_nil]

/-- The statements of a row are found. -/
theorem ofTrees_row : ∀ (r : Row) (start : Nat),
    Statement.ofTrees ix start r.trees = r.statements ix start
  | .nil, start => by rw [Row.trees, Statement.ofTrees, Row.statements]
  | .cons gap first others, start => by
      rw [Row.trees, (skips_ofTrees ix).gap, ofTrees_cons_tree, ofTree_tree first,
        ofTrees_row others, Row.statements]

end

/-! ### Where a statement is printed -/

/-- The statement is that of something printed in the text, which starts at byte `start`. -/
def PrintedIn (ix : LineIndex) (text : List Char) (start : Nat) (s : Statement) : Prop :=
  ∃ (q : Printed) (before behind : List Char), text = before ++ (q.text ++ behind) ∧
    s = q.statement ix (start + Utf8.size before)

/-- A statement is printed in its own text. -/
theorem PrintedIn.self (p : Printed) (start : Nat) :
    PrintedIn ix p.text start (p.statement ix start) :=
  ⟨p, [], [], by simp, by simp⟩

/-- A statement that is printed is itself, or one of those that it holds. -/
theorem PrintedIn.of_children (p : Printed) (start : Nat) {s : Statement}
    (hinside : s ∈ Statement.preorderOfList (p.statement ix start).children →
      PrintedIn ix p.text start s)
    (h : s ∈ (p.statement ix start).preorder) : PrintedIn ix p.text start s := by
  rw [Statement.preorder_eq, List.mem_cons] at h
  rcases h with rfl | h
  · exact .self ix p start
  · exact hinside h

/-- What is printed in a part of the text is printed in the text. -/
theorem PrintedIn.within {ix : LineIndex} {t text : List Char} {start start' : Nat}
    {s : Statement} (h : PrintedIn ix t start' s) (a b : List Char) (htext : text = a ++ (t ++ b))
    (hstart : start' = start + Utf8.size a) : PrintedIn ix text start s := by
  obtain ⟨q, before, behind, rfl, rfl⟩ := h
  refine ⟨q, a ++ before, behind ++ b, ?_, ?_⟩
  · rw [htext]
    simp
  · rw [hstart, Utf8.size_append, Nat.add_assoc]

@[simp] theorem span_statement (p : Printed) (start : Nat) :
    (p.statement ix start).span = Statement.spanOf ix start p.size := by
  cases p <;> rw [statement] <;> rfl

mutual

/-- **Every statement inside a printed one is that of something printed inside.** -/
theorem printedIn_statement : ∀ (p : Printed) (start : Nat) {s : Statement},
    s ∈ (p.statement ix start).preorder → PrintedIn ix p.text start s
  | simple gap semicolon, start, s, h => by
      refine .of_children ix _ start (fun h => ?_) h
      simp [statement, Statement.children, Statement.preorderOfList] at h
  | block inner last, start, s, h => by
      refine .of_children ix _ start (fun h => ?_) h
      simp only [statement, Statement.children] at h
      refine (printedIn_row inner _ h).within Word.BEGIN.text (last.text ++ Word.END.text) ?_ rfl
      rw [text]
  | tryCatch tried gap caught, start, s, h => by
      refine .of_children ix _ start (fun h => ?_) h
      simp only [statement, Statement.children, Statement.preorderOfList_append,
        List.mem_append] at h
      rcases h with h | h
      · refine (printedIn_section .TRY tried _ h).within [] (gap.text ++ caught.text .CATCH) ?_ rfl
        rw [text, List.nil_append]
      · refine (printedIn_section .CATCH caught _ h).within (tried.text .TRY ++ gap.text) [] ?_ ?_
        · simp [text]
        · simp [Section.size, Blank.size, Nat.add_assoc]
  | ifThen condition gap yes, start, s, h => by
      refine .of_children ix _ start (fun h => ?_) h
      simp only [statement, Statement.children, Option.toList_some, Option.toList_none,
        List.append_nil, Statement.preorderOfList] at h
      refine (printedIn_statement yes _ h).within
        (Word.IF.text ++ (condition.text ++ gap.text)) [] ?_ ?_
      · simp [text]
      · simp [Word.size, Condition.size, Blank.size, Nat.add_assoc]
  | ifElse condition gap yes before after no, start, s, h => by
      refine .of_children ix _ start (fun h => ?_) h
      simp only [statement, Statement.children, Option.toList_some, List.singleton_append,
        Statement.preorderOfList, List.append_nil, List.mem_append] at h
      rcases h with h | h
      · refine (printedIn_statement yes _ h).within
          (Word.IF.text ++ (condition.text ++ gap.text))
          (before.text ++ (Word.ELSE.text ++ (after.text ++ no.text))) ?_ ?_
        · simp [text]
        · simp [Word.size, Condition.size, Blank.size, Nat.add_assoc]
      · refine (printedIn_statement no _ h).within
          (Word.IF.text ++ (condition.text ++ (gap.text ++ (yes.text ++ (before.text ++
            (Word.ELSE.text ++ after.text)))))) [] ?_ ?_
        · simp [text]
        · simp [Word.size, Condition.size, Blank.size, size, Nat.add_assoc]
  | loop condition gap body, start, s, h => by
      refine .of_children ix _ start (fun h => ?_) h
      simp only [statement, Statement.children, Statement.preorderOfList, List.append_nil] at h
      refine (printedIn_statement body _ h).within
        (Word.WHILE.text ++ (condition.text ++ gap.text)) [] ?_ ?_
      · simp [text]
      · simp [Word.size, Condition.size, Blank.size, Nat.add_assoc]

theorem printedIn_section (w : Word) : ∀ (x : Section) (start : Nat) {s : Statement},
    s ∈ Statement.preorderOfList (x.statements ix w start) → PrintedIn ix (x.text w) start s
  | .mk opening inner last closing, start, s, h => by
      rw [Section.statements] at h
      refine (printedIn_row inner _ h).within (Word.BEGIN.text ++ (opening.text ++ w.text))
        (last.text ++ (Word.END.text ++ (closing.text ++ w.text))) ?_ ?_
      · simp [Section.text]
      · simp [Word.size, Blank.size, Nat.add_assoc]

/-- Every statement of a row is printed in it. -/
theorem printedIn_row : ∀ (r : Row) (start : Nat) {s : Statement},
    s ∈ Statement.preorderOfList (r.statements ix start) → PrintedIn ix r.text start s
  | .nil, start, s, h => by
      rw [Row.statements, Statement.preorderOfList] at h
      cases h
  | .cons gap first others, start, s, h => by
      rw [Row.statements, Statement.preorderOfList, List.mem_append] at h
      rcases h with h | h
      · refine (printedIn_statement first _ h).within gap.text others.text ?_ rfl
        rw [Row.text]
      · refine (printedIn_row others _ h).within (gap.text ++ first.text) [] ?_ ?_
        · simp [Row.text]
        · simp [Blank.size, size, Nat.add_assoc]

end

end

end Printed

end SqlCaret
