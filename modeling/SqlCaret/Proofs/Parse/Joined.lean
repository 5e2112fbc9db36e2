import SqlCaret.Proofs.Outline.Line
import SqlCaret.Proofs.Parse.Errors
import SqlCaret.Proofs.Parse.Separators
import SqlCaret.Proofs.Syntax.Cut

/-!
# Parse — texts around a separator line

How a text is parsed that has a separator line in it, told from the texts on both sides.  The tokens
are those of the part up to the end of the line and then those of the part behind it
(`lexemes_line_append`).  The outlines and the problems are some for the part in front, and then
those of the part behind as if it were parsed alone (`Front`); so are the trees (`Front.tree_eq`).

What is in front does not depend on what is behind (`exists_front`), but for a `WITH` right in front
of the line.
-/

namespace SqlCaret

open SqlCaret.Tree
open SqlCaret.Printed (goLine goMark go lineEnd)

/-! ### Tokens further on -/

def SyntaxError.later (n : Nat) (e : SyntaxError) : SyntaxError := ⟨e.fault, e.offset + n⟩

namespace Token

theorem significant_map_later (n : Nat) (ts : List Token) :
    significant (ts.map (later n)) = (significant ts).map (later n) := by
  rw [significant, List.filter_map]
  rfl

/-- A place among the tokens in front. -/
theorem offsetAt_append_of_lt {ts : List Token} {i : Nat} (h : i < (significant ts).length)
    (us : List Token) : offsetAt (ts ++ us) i = offsetAt ts i := by
  rw [offsetAt, offsetAt, significant_append, List.getElem?_append_left h,
    List.getElem?_eq_getElem h]

end Token

theorem SyntaxError.ofTokens_append (ts us : List Token) :
    ofTokens (ts ++ us) = ofTokens ts ++ ofTokens us := List.filterMap_append ..

theorem SyntaxError.ofTokens_map_later (n : Nat) (ts : List Token) :
    ofTokens (ts.map (.later n)) = (ofTokens ts).map (later n) := by
  rw [ofTokens, List.filterMap_map, ofTokens, List.map_filterMap]
  congr 1
  funext t
  simp only [Function.comp_apply, Option.map_map]
  rfl

/-- Lexemes behind those that are taken. -/
theorem Weaves.append_rest {α : Type} {kindOf : α → Kind} {os : List (Tree α)}
    {ls rest : List Lexeme} {ts : List SyntaxTree} (h : Weaves kindOf os ls ts rest)
    {behind : List Lexeme} (hbehind : SignificantFirst behind) :
    Weaves kindOf os (ls ++ behind) ts (rest ++ behind) := by
  induction h with
  | nil ls => exact .nil _
  | trivia ht hos _ ih => exact .trivia ht hos ih
  | leaf ht hk _ ih => exact .leaf ht hk ih
  | @node k os os' ls ls₁ rest us ts hs _ _ ih₁ ih₂ =>
      refine .node ?_ ih₁ ih₂
      cases ls with
      | nil => exact hbehind
      | cons l ls => exact hs

/-! ### Two texts -/

section
variable {a b : List Char} (h : lexemes (a ++ b) = lexemes a ++ lexemes b)
include h

/-- A text that is cut into the tokens of two texts. -/
theorem tokenize_append :
    tokenize (a ++ b) = tokenize a ++ (tokenize b).map (.later (Utf8.size a)) := by
  rw [tokenize, h, Token.place_append, flatMap_text_lexemes, tokenize, tokenize, Nat.zero_add,
    ← Token.place_add, Nat.add_zero]

/-- A place among the tokens behind. -/
theorem offsetAt_append (i : Nat) :
    Token.offsetAt (tokenize (a ++ b)) (i + (Token.significant (tokenize a)).length) =
      Token.offsetAt (tokenize b) i + Utf8.size a := by
  have htokens := tokenize_append h
  have hbehind : (Token.significant (tokenize (a ++ b)))[
      i + (Token.significant (tokenize a)).length]? =
      (Token.significant (tokenize b))[i]?.map (.later (Utf8.size a)) := by
    rw [htokens, Token.significant_append, Token.significant_map_later,
      List.getElem?_append_right (Nat.le_add_left _ _), Nat.add_sub_cancel, List.getElem?_map]
  rw [Token.offsetAt, Token.offsetAt, hbehind]
  cases (Token.significant (tokenize b))[i]? with
  | none =>
      simp only [Option.map_none, finalStop_tokenize]
      rw [Utf8.size_append, Nat.add_comm]
  | some t => rfl

end

/-! ### A separator line between two texts -/

namespace Parse

/-- The last token of a text that is no white space and no comment is the word `WITH`. -/
def EndsInWith (text : List Char) : Prop :=
  ∃ m ∈ (cursor defaultSeparator text).ahead.getLast?, m.keyword = some .WITH

/-- Whether a text begins like what comes after `WITH` and a name. -/
def opensCte (text : List Char) : Bool := (cursor defaultSeparator text).opensCte

theorem guarded_cursor (text : List Char) :
    ∀ m ∈ (cursor defaultSeparator text).ahead, m.Guarded := fun _ =>
  Mark.guarded_of_mem_read (by decide)

/-- A line begins in front of every text. -/
theorem afterBreak_cursor (text : List Char) :
    ∀ m ∈ (cursor defaultSeparator text).ahead.head?, m.afterBreak = true := by
  intro m hm
  have h := Printed.afterBreak_read true (lexemes text) none 0
  obtain ⟨ms, hms⟩ := List.head?_eq_some_iff.mp hm
  have hread : Mark.read defaultSeparator true true (lexemes text) = m :: ms := hms
  rw [hread] at h
  exact h

theorem lexemes_go (b : List Char) :
    lexemes ('G' :: 'O' :: '\n' :: b) = go :: lineEnd :: lexemes b := by
  have hfeed := Cut.nil.eq ('G' :: 'O' :: '\n' :: b)
  exact (List.cons.inj (hfeed.symm.trans (Printed.lexemes_goLine b))).2

theorem ofLexemes_go (ls : List Lexeme) :
    Mark.ofLexemes defaultSeparator (go :: lineEnd :: ls) =
      goMark :: Mark.ofLexemes defaultSeparator ls := Printed.read_goLine true true ls

theorem append_goLine (a b : List Char) :
    a ++ goLine ++ b = a ++ '\n' :: 'G' :: 'O' :: '\n' :: b := by simp [goLine]

section
variable {a : List Char} {ls : List Lexeme} {l : Lexeme} (hcut : Cut a ls l)
include hcut

theorem lexemes_line (b : List Char) :
    lexemes (a ++ goLine ++ b) = ls ++ l :: go :: lineEnd :: lexemes b := by
  rw [append_goLine, hcut.eq, lexemes_go]

/-- **A text is cut behind a separator line.** -/
theorem lexemes_line_append (b : List Char) :
    lexemes (a ++ goLine ++ b) = lexemes (a ++ goLine) ++ lexemes b := by
  have hfront := lexemes_line hcut []
  rw [List.append_nil] at hfront
  rw [lexemes_line hcut, hfront]
  simp [lexemes, Lexeme.scan]

/-- The marks on both sides of the line. -/
theorem cursor_line (b : List Char) :
    cursor defaultSeparator (a ++ goLine ++ b) =
      ⟨none, (cursor defaultSeparator a).ahead ++ goMark :: (cursor defaultSeparator b).ahead, 0⟩ := by
  have hline := hcut.ofLexemes defaultSeparator ('G' :: 'O' :: '\n' :: b)
  rw [lexemes_go, ofLexemes_go, ← append_goLine] at hline
  exact congrArg Cursor.ofMarks hline

/-- As many significant tokens end with the line as marks. -/
theorem length_significant_line :
    (Token.significant (tokenize (a ++ goLine))).length =
      (cursor defaultSeparator a).ahead.length + 1 := by
  have hline := cursor_line hcut []
  rw [List.append_nil] at hline
  rw [← length_ahead_cursor defaultSeparator, hline, List.length_append]
  rfl

end

theorem significantKinds_of_trivia {ws : List Lexeme} (h : ∀ w ∈ ws, w.kind.isTrivia = true) :
    significantKinds ws = [] := by
  simpa [significantKinds] using h

theorem outlines_ne_nil (text : List Char) : outlines defaultSeparator text ≠ [] := by
  intro hnil
  have h : Kind.alternate (nodeKinds (outlines defaultSeparator text)) = true :=
    (outlines_form defaultSeparator text).1
  rw [hnil] at h
  cases h

/-- The outline of a text with a separator line in it has `front` for the part in front, with the
problems `ps`, and then the outline of the part behind. -/
structure Front (a b : List Char) (front : List Outline) (ps : List Problem) : Prop where
  outlines_eq : outlines defaultSeparator (a ++ goLine ++ b) =
    front ++ .node .separator [.leaf goMark] :: outlines defaultSeparator b
  problems_eq : (Outline.script (cursor defaultSeparator (a ++ goLine ++ b))).problems =
    ps ++ (Outline.script (cursor defaultSeparator b)).problems.map
      (.later (Token.significant (tokenize (a ++ goLine))).length)
  placed : ∀ p ∈ ps, p.index < (Token.significant (tokenize (a ++ goLine))).length

section
variable {a : List Char} {ls : List Lexeme} {l : Lexeme} (hcut : Cut a ls l)
include hcut

theorem Front.of_partsTo {b : List Char} {front : List Outline} {ps : List Problem}
    (h : Outline.PartsTo (cursor defaultSeparator a).ahead.length (cursor defaultSeparator b).ahead
      (cursor defaultSeparator (a ++ goLine ++ b)) front ps) : Front a b front ps := by
  have hlength := length_significant_line hcut
  obtain ⟨hvalue, hproblems⟩ := Outline.parts_behind _ _
    (.line (guarded_cursor b) ((cursor defaultSeparator a).ahead.length + 1))
  refine ⟨?_, ?_, fun p hp => ?_⟩
  · exact h.value.trans (by rw [hvalue]; rfl)
  · rw [hlength]
    exact h.problems.trans (by rw [hproblems]; rfl)
  · rw [hlength]
    exact Nat.lt_succ_of_le (h.placed p hp)

/-- **What stands behind a separator line does not show in the outline in front of it**, if no
`WITH` stands right in front of the line or the two texts behind it begin alike. -/
theorem exists_front (b b' : List Char) (hcte : EndsInWith a → opensCte b = opensCte b') :
    ∃ front ps, Front a b front ps ∧ Front a b' front ps := by
  have hbeside : Outline.Beside (cursor defaultSeparator b).ahead (cursor defaultSeparator b').ahead
      (cursor defaultSeparator a).ahead.length (cursor defaultSeparator (a ++ goLine ++ b))
      (cursor defaultSeparator (a ++ goLine ++ b')) := by
    rw [cursor_line hcut, cursor_line hcut]
    exact .mk (guarded_cursor a) (fun m hm hwith => hcte ⟨m, hm, hwith⟩) (Nat.zero_add _)
  obtain ⟨front, ps, hfront, hfront'⟩ :=
    Outline.parts_beside (afterBreak_cursor b) (afterBreak_cursor b') _ _ hbeside
  exact ⟨front, ps, .of_partsTo hcut hfront, .of_partsTo hcut hfront'⟩

/-! ### The syntax tree -/

/-- The marks of the trees in front are those of the text in front. -/
theorem Front.leaves_eq {b : List Char} {front : List Outline} {ps : List Problem}
    (h : Front a b front ps) : leavesOfList front = (cursor defaultSeparator a).ahead := by
  have hline := Outline.leaves_script (cursor defaultSeparator (a ++ goLine ++ b))
  have hbehind := Outline.leaves_script (cursor defaultSeparator b)
  rw [Outline.script, leaves_node] at hline hbehind
  have houtlines : leavesOfList (outlines defaultSeparator (a ++ goLine ++ b)) =
      (cursor defaultSeparator a).ahead ++ goMark :: (cursor defaultSeparator b).ahead :=
    hline.trans (congrArg Cursor.ahead (cursor_line hcut b))
  rw [h.outlines_eq, leavesOfList_append, leavesOfList_cons, leaves_node] at houtlines
  refine List.append_cancel_right (houtlines.trans ?_)
  rw [← hbehind]
  rfl

/-- They are woven over the lexemes up to the line. -/
theorem Front.exists_weaves {b : List Char} {front : List Outline} {ps : List Problem}
    (h : Front a b front ps) : ∃ ts rest, Weaves Mark.kind front (ls ++ [l]) ts rest ∧
      ∀ x ∈ rest, x.kind.isTrivia = true := by
  obtain ⟨ws, hws, htrivia⟩ := hcut.alone
  have hread : (cursor defaultSeparator a).ahead.map Mark.kind = significantKinds (lexemes a) :=
    Mark.map_kind_read ..
  have hend : significantKinds [l] = [] := significantKinds_of_trivia (by simp [hcut.isTrivia])
  have hkinds : significantKinds (ls ++ [l]) = (leavesOfList front).map Mark.kind ++ [] := by
    rw [h.leaves_eq hcut, List.append_nil, hread, hws, significantKinds_append,
      significantKinds_append, hend, significantKinds_of_trivia htrivia]
  obtain ⟨ts, rest, hw, hrest⟩ := SqlCaret.exists_weaves _ _ [] hkinds
  exact ⟨ts, rest, hw, trivia_of_significantKinds_eq_nil hrest⟩

/-- The trees up to the end of the line. -/
def head (ts : List SyntaxTree) (rest : List Lexeme) : List SyntaxTree :=
  ts ++ (rest.map .leaf ++ [.node .separator [.leaf go], .leaf lineEnd])

theorem sizeOfList_head {front : List Outline} {ts : List SyntaxTree} {rest : List Lexeme}
    (hw : Weaves Mark.kind front (ls ++ [l]) ts rest) :
    sizeOfList (head ts rest) = Utf8.size (a ++ goLine) := by
  have hline := lexemes_line hcut []
  have hleaves : leavesOfList (head ts rest) = lexemes (a ++ goLine) := by
    rw [List.append_nil, show ls ++ l :: go :: lineEnd :: lexemes [] =
      (ls ++ [l]) ++ [go, lineEnd] by simp [lexemes, Lexeme.scan], hw.leaves_eq] at hline
    rw [hline]
    simp [head]
  rw [sizeOfList_eq, hleaves, flatMap_text_lexemes]

/-- **The tree behind a separator line is the tree of the text there.** -/
theorem Front.tree_eq {b : List Char} {front : List Outline} {ps : List Problem}
    (h : Front a b front ps) {ts : List SyntaxTree} {rest : List Lexeme}
    (hw : Weaves Mark.kind front (ls ++ [l]) ts rest) (hrest : ∀ x ∈ rest, x.kind.isTrivia = true) :
    (ofText (a ++ goLine ++ b) defaultSeparator).tree =
      .node .script (head ts rest ++ (ofText b defaultSeparator).tree.children) := by
  obtain ⟨us, behind, hw', hbehind⟩ := exists_weaves_lexemes defaultSeparator b
  obtain ⟨-, hparse'⟩ := ofText_eq hw' hbehind
  have hgo : SignificantFirst (go :: lineEnd :: lexemes b) := by
    intro x hx
    cases hx
    rfl
  have hbreak : Weaves Mark.kind (outlines defaultSeparator b) (lineEnd :: lexemes b)
      (.leaf lineEnd :: us) behind := .trivia rfl (outlines_ne_nil b) hw'
  have hline :=
    Weaves.trivias (.node (k := .separator) hgo (.leaf (a := goMark) rfl rfl (.nil _)) hbreak)
    (List.cons_ne_nil _ _) hrest
  have hwhole : Weaves Mark.kind (outlines defaultSeparator (a ++ goLine ++ b))
      (lexemes (a ++ goLine ++ b))
      (ts ++ (rest.map .leaf ++ .node .separator [.leaf go] :: .leaf lineEnd :: us)) behind := by
    have hlexemes : lexemes (a ++ goLine ++ b) = ls ++ [l] ++ go :: lineEnd :: lexemes b := by
      rw [lexemes_line hcut, List.append_assoc]
      rfl
    rw [h.outlines_eq, hlexemes]
    exact (hw.append_rest hgo).append hline
  obtain ⟨-, hparse⟩ := ofText_eq hwhole hbehind
  rw [hparse, hparse']
  simp [head, Tree.children]

end

end Parse

end SqlCaret
