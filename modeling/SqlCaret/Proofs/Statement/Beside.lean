import SqlCaret.Proofs.Parse.Alike
import SqlCaret.Proofs.Syntax.Case

/-!
# Statement — beside

Trees side by side whose leaves take as many bytes have the same rows (`Beside.bounds_eq`) and,
where bytes have the same points, the same statements (`Beside.batchesOf_eq`).  So letter case makes
no difference to a parsed script at all (`ParsedScript.ofText_congr`).

`Parse.depends_on_words_and_breaks` puts together on what the structure of a script depends.
-/

namespace SqlCaret

open SqlCaret.Tree

/-! ### The same bytes -/

/-- Lexemes of the same kind and of as many bytes. -/
structure Lexeme.SameExtent (l l' : Lexeme) : Prop where
  kind : l.kind = l'.kind
  size : Utf8.size l.text = Utf8.size l'.text

theorem Lexeme.sameExtent_of_fold_eq {l l' : Lexeme} (h : l.fold = l'.fold) : l.SameExtent l' := by
  obtain ⟨hkind, htext⟩ := Lexeme.mk.inj h
  refine ⟨hkind, ?_⟩
  rw [← Letters.size_fold, htext, Letters.size_fold]

theorem Lexeme.SameExtent.size_flatMap_eq {ls ls' : List Lexeme}
    (h : List.Forall₂ Lexeme.SameExtent ls ls') :
    Utf8.size (ls.flatMap (·.text)) = Utf8.size (ls'.flatMap (·.text)) := by
  induction h with
  | nil => rfl
  | cons hl _ ih => simp only [List.flatMap_cons, Utf8.size_append, hl.size, ih]

namespace Token

theorem offset_of_getElem?_place {start i : Nat} {ls : List Lexeme} {t : Token}
    (h : (place start ls)[i]? = some t) :
    t.offset = start + Utf8.size ((ls.take i).flatMap (·.text)) := by
  induction ls generalizing start i with
  | nil => cases h
  | cons l ls ih =>
      cases i with
      | zero =>
          obtain rfl := Option.some.inj h
          rfl
      | succ i =>
          rw [ih h, List.take_succ_cons, List.flatMap_cons, Utf8.size_append, Nat.add_assoc]

/-- A token starts behind the texts of those before it. -/
theorem startAt_place (ls : List Lexeme) (i : Nat) :
    startAt (place 0 ls) i = Utf8.size ((ls.take i).flatMap (·.text)) := by
  rw [startAt]
  split
  · rename_i t ht
    rw [offset_of_getElem?_place ht, Nat.zero_add]
  · rename_i hnone
    have hle : ls.length ≤ i := by simpa using hnone
    rw [finalStop_place, List.take_of_length_le hle]

/-- Tokens of as many bytes in pairs start at the same bytes. -/
theorem startAt_eq {text text' : List Char}
    (h : List.Forall₂ Lexeme.SameExtent (lexemes text) (lexemes text')) :
    startAt (tokenize text) = startAt (tokenize text') := by
  funext i
  rw [tokenize, tokenize, startAt_place, startAt_place,
    Lexeme.SameExtent.size_flatMap_eq (List.forall₂_take i h)]

end Token

/-- What a row says but its text. -/
def Tree.Row.bounds (r : Tree.Row) : Nat × Kind × Nat × Nat := (r.depth, r.kind, r.start, r.stop)

/-- The trees `ts` and `us` make the same statements, whichever way they are looked for. -/
structure Statement.Agree (ix ix' : LineIndex) (start : Nat) (ts us : List SyntaxTree) : Prop where
  trees : ofTrees ix start ts = ofTrees ix' start us
  first : first? ix start ts = first? ix' start us
  elseBranch : elseBranch? ix start ts = elseBranch? ix' start us

/-- What a node is depends on the statements inside and on where it starts and stops. -/
theorem Statement.Agree.ofTree {ix ix' : LineIndex} {start : Nat} {ts us : List SyntaxTree}
    (h : Agree ix ix' start ts us) (hpoint : ∀ o, ix.point o = ix'.point o)
    (hsize : sizeOfList ts = sizeOfList us) (k : Kind) :
    ofTree ix start (.node k ts) = ofTree ix' start (.node k us) := by
  have hspan : spanOf ix start (sizeOfList ts) = spanOf ix' start (sizeOfList us) := by
    rw [spanOf, spanOf, hsize, hpoint, hpoint]
  cases k <;> simp only [Statement.ofTree, hspan, h.trees, h.first, h.elseBranch]

namespace Beside

variable {ts us : List SyntaxTree}

theorem sizeOfList_eq (h : Beside Lexeme.SameExtent ts us) : sizeOfList ts = sizeOfList us := by
  induction h with
  | nil => rfl
  | leaf hl _ ih => simp [hl.size, ih]
  | node _ _ ih₁ ih₂ => simp [ih₁, ih₂]

/-- **The same nodes and tokens at the same bytes.** -/
theorem bounds_eq (h : Beside Lexeme.SameExtent ts us) (depth start : Nat) :
    (rowsOfList depth start ts).map Row.bounds = (rowsOfList depth start us).map Row.bounds := by
  induction h generalizing depth start with
  | nil => rfl
  | leaf hl _ ih => simp [rows, Row.bounds, hl.kind, hl.size, ih]
  | node inner _ ih₁ ih₂ => simp [rows_node, Row.bounds, inner.sizeOfList_eq, ih₁, ih₂]

section
variable {ix ix' : LineIndex} (hpoint : ∀ o, ix.point o = ix'.point o)
include hpoint

theorem agree (h : Beside Lexeme.SameExtent ts us) (start : Nat) :
    Statement.Agree ix ix' start ts us := by
  induction h generalizing start with
  | nil => exact ⟨by simp [Statement.ofTrees], by simp [Statement.first?],
      by simp [Statement.elseBranch?]⟩
  | @leaf l _ _ _ hl _ ih =>
      have ih := ih (start + Utf8.size l.text)
      constructor
      · rw [Statement.ofTrees, Statement.ofTrees, ← hl.size, ih.trees]
      · rw [Statement.first?, Statement.first?, ← hl.size, ih.first]
      · rw [Statement.elseBranch?, Statement.elseBranch?, ← hl.size, ih.elseBranch]
  | @node k ts _ _ _ inner _ ih₁ ih₂ =>
      have hnode := (ih₁ start).ofTree hpoint inner.sizeOfList_eq k
      have ih := ih₂ (start + sizeOfList ts)
      constructor
      · rw [Statement.ofTrees, Statement.ofTrees, hnode, (ih₁ start).trees,
          ← inner.sizeOfList_eq, ih.trees]
      · rw [Statement.first?, Statement.first?, hnode, ← inner.sizeOfList_eq, ih.first]
      · rw [Statement.elseBranch?, Statement.elseBranch?, (ih₁ start).first,
          ← inner.sizeOfList_eq, ih.elseBranch]

/-- **The same batches.** -/
theorem batchesOf_eq (h : Beside Lexeme.SameExtent ts us) (start : Nat) :
    Script.batchesOf ix start ts = Script.batchesOf ix' start us := by
  induction h generalizing start with
  | nil => rfl
  | leaf hl _ ih => simp [Script.batchesOf, hl.size, ih]
  | @node k _ _ _ _ inner _ _ ih =>
      have hbatch := (inner.agree hpoint start).trees
      by_cases hk : k = .batch
      · subst hk
        simp [Script.batchesOf, inner.sizeOfList_eq, hbatch, ih]
      · simp [Script.batchesOf, inner.sizeOfList_eq, hk, ih]

end

end Beside

/-! ### Letter case -/

namespace Parse

section
variable {text text' separator separator' : List Char} (h : Letters.fold text = Letters.fold text')
  (hs : Letters.fold separator = Letters.fold separator')
include h hs

/-- In another letter case a text has the same structure, and its tokens are the same words. -/
theorem sameStructure_of_fold_eq :
    SameStructure (fun l l' => l.fold = l'.fold) text text' (ofText text separator)
      (ofText text' separator') :=
  have hlexemes := Lexeme.forall₂_fold_eq h
  sameStructure (fun l l' (hl : l.fold = l'.fold) => (Lexeme.alike_of_fold_eq hl).kind) hlexemes
    (cursor_congr (hlexemes.imp fun _ _ => Lexeme.alike_of_fold_eq) hs)

theorem beside_of_fold_eq :
    Beside Lexeme.SameExtent [(ofText text separator).tree] [(ofText text' separator').tree] :=
  (sameStructure_of_fold_eq h hs).tokens.mono fun _ _ => Lexeme.sameExtent_of_fold_eq

/-- Letter case moves no node and no token. -/
theorem bounds_eq_of_fold_eq :
    (rows text separator).map Row.bounds = (rows text' separator').map Row.bounds := by
  simpa [rows] using (beside_of_fold_eq h hs).bounds_eq 0 0

/-- Letter case changes no error. -/
theorem errors_eq_of_fold_eq :
    (ofText text separator).errors = (ofText text' separator').errors := by
  obtain ⟨faults, -, herrors, herrors'⟩ := (sameStructure_of_fold_eq h hs).errors
  have hextents := (Lexeme.forall₂_fold_eq h).imp fun _ _ => Lexeme.sameExtent_of_fold_eq
  have hplaces : SyntaxError.atToken (tokenize text) = SyntaxError.atToken (tokenize text') := by
    funext f
    rw [SyntaxError.atToken, SyntaxError.atToken, Token.startAt_eq hextents]
  rw [herrors, herrors', hplaces]

end

end Parse

/-- **Letter case makes no difference to a parsed script.** -/
theorem ParsedScript.ofText_congr {text text' separator separator' : List Char}
    (h : Letters.fold text = Letters.fold text')
    (hs : Letters.fold separator = Letters.fold separator') :
    ofText text separator = ofText text' separator' := by
  have hpoint : ∀ o, (LineIndex.ofText text).point o = (LineIndex.ofText text').point o := by
    intro o
    rw [← LineIndex.point_fold, h, LineIndex.point_fold]
  have hbatches := (Parse.beside_of_fold_eq h hs).children.batchesOf_eq hpoint 0
  simp only [ofText, Script.ofTree, hbatches, Parse.errors_eq_of_fold_eq h hs, hpoint]

/-- **On what the structure of a script depends.**  Take two texts and two separators that are the
same word.

When the tokens of the texts agree in pairs on their kinds, words in any letter case, and white space
and comments on whether a line ends in them, then the parses have the same structure: the same nodes
over the same tokens, and the same faults in the same order at the same tokens.

When the texts differ in letter case only, then nothing differs in the parses but the letter case of
the tokens: every node and token is at the same bytes, the errors are the same, and so are all
statements. -/
theorem Parse.depends_on_words_and_breaks (text text' separator separator' : List Char)
    (hs : Letters.fold separator = Letters.fold separator') :
    (List.Forall₂ Lexeme.Alike (lexemes text) (lexemes text') →
      SameStructure Lexeme.Alike text text' (ofText text separator) (ofText text' separator')) ∧
    (Letters.fold text = Letters.fold text' →
      (rows text separator).map Row.bounds = (rows text' separator').map Row.bounds ∧
        (ofText text separator).errors = (ofText text' separator').errors ∧
        ParsedScript.ofText text separator = ParsedScript.ofText text' separator') :=
  ⟨fun h => sameStructure_of_alike h hs, fun h => ⟨bounds_eq_of_fold_eq h hs,
    errors_eq_of_fold_eq h hs, ParsedScript.ofText_congr h hs⟩⟩

/-- A number in another's place, a line ending in another's, and then other letters. -/
theorem Parse.depends_on_words_and_breaks_print :
    SameStructure Lexeme.Alike "print 1\n".toList "PRINT 22\r".toList
        (ofText "print 1\n".toList "go".toList) (ofText "PRINT 22\r".toList "GO".toList) ∧
      ParsedScript.ofText "print 1\n".toList "go".toList =
        ParsedScript.ofText "Print 1\n".toList "GO".toList := by
  have hs : Letters.fold "go".toList = Letters.fold "GO".toList := by decide
  refine ⟨(depends_on_words_and_breaks _ _ _ _ hs).1 ?_,
    ((depends_on_words_and_breaks _ _ _ _ hs).2 (by decide)).2.2⟩
  have hleft : lexemes "print 1\n".toList =
      [⟨.word, "print".toList⟩, ⟨.whitespace, [' ']⟩, ⟨.number, ['1']⟩,
        ⟨.newline, ['\n']⟩] := by decide +kernel
  have hright : lexemes "PRINT 22\r".toList =
      [⟨.word, "PRINT".toList⟩, ⟨.whitespace, [' ']⟩, ⟨.number, ['2', '2']⟩,
        ⟨.newline, ['\r']⟩] := by decide +kernel
  rw [hleft, hright]
  refine .cons ⟨rfl, ?_, ?_⟩ (.cons ⟨rfl, ?_, ?_⟩ (.cons ⟨rfl, ?_, ?_⟩ (.cons ⟨rfl, ?_, ?_⟩ .nil)))
    <;> decide

end SqlCaret
