import SqlCaret.Proofs.Syntax.Tokens
import SqlCaret.Proofs.Tree.Woven
import SqlCaret.Syntax.Tree.Row

/-!
# Trees — rows

What the rows of a tree say of its leaves.  The rows of tokens are the leaves laid end to end
(`tokens_rows`), and the row of a node covers just the leaves of that node
(`exists_covered`).  In a tight tree such a row begins with the first byte of a significant
token and ends with the last byte of one (`Row.Covers.significant`).
-/

namespace SqlCaret.Tree

@[simp] theorem size_leaf (l : Lexeme) : size (.leaf l) = Utf8.size l.text := by rw [size]

@[simp] theorem size_node (k : Kind) (ts : List SyntaxTree) :
    size (.node k ts) = sizeOfList ts := by rw [size]

@[simp] theorem sizeOfList_nil : sizeOfList [] = 0 := by rw [sizeOfList]

@[simp] theorem sizeOfList_cons (t : SyntaxTree) (ts : List SyntaxTree) :
    sizeOfList (t :: ts) = size t + sizeOfList ts := by rw [sizeOfList]

@[simp] theorem rowsOfList_nil (depth start : Nat) : rowsOfList depth start [] = [] := by
  rw [rowsOfList]

@[simp] theorem rowsOfList_cons (depth start : Nat) (t : SyntaxTree) (ts : List SyntaxTree) :
    rowsOfList depth start (t :: ts) =
      rows depth start t ++ rowsOfList depth (start + size t) ts := by rw [rowsOfList]

/-- The row of a node, and those of its children one level deeper. -/
theorem rows_node (depth start : Nat) (k : Kind) (ts : List SyntaxTree) :
    rows depth start (.node k ts) =
      ⟨depth, k, start, start + sizeOfList ts, none⟩ :: rowsOfList (depth + 1) start ts := by
  rw [rows]

/-- The rows of trees in a row, the second ones behind the bytes of the first. -/
theorem rowsOfList_append (depth start : Nat) (ts us : List SyntaxTree) :
    rowsOfList depth start (ts ++ us) =
      rowsOfList depth start ts ++ rowsOfList depth (start + sizeOfList ts) us := by
  induction ts generalizing start with
  | nil => simp
  | cons t ts ih => simp [ih, Nat.add_assoc]

/-- The row of a token has its text. -/
theorem text_ne_none_of_mem_leaves {depth start : Nat} {ls : List Lexeme} {r : Row}
    (h : r ∈ rowsOfList depth start (ls.map .leaf)) : r.text ≠ none := by
  induction ls generalizing start with
  | nil => simp at h
  | cons l ls ih =>
      rw [List.map_cons, rowsOfList_cons, rows, List.mem_append, List.mem_singleton] at h
      rcases h with rfl | h
      · simp
      · exact ih h

mutual

/-- A tree has the bytes of its leaves. -/
theorem size_eq : ∀ t : SyntaxTree, size t = Utf8.size ((leaves t).flatMap (·.text))
  | leaf l => by simp
  | node k ts => by rw [size_node, sizeOfList_eq ts, leaves_node]

theorem sizeOfList_eq : ∀ ts : List SyntaxTree,
    sizeOfList ts = Utf8.size ((leavesOfList ts).flatMap (·.text))
  | [] => by simp
  | t :: ts => by simp [size_eq t, sizeOfList_eq ts]

end

/-- The token that a row is, if it is one. -/
def Row.token? (r : Row) : Option Token := r.text.map fun t => ⟨⟨r.kind, t⟩, r.start⟩

mutual

/-- The rows of tokens are the leaves laid end to end. -/
theorem tokens_rows (depth start : Nat) : ∀ t : SyntaxTree,
    (rows depth start t).filterMap Row.token? = Token.place start (leaves t)
  | leaf l => by simp [rows, Row.token?, Token.place]
  | node k ts => by
      rw [rows_node, leaves_node, ← tokens_rowsOfList (depth + 1) start ts]
      rfl

/-- **The rows of tokens are the leaves laid end to end.** -/
theorem tokens_rowsOfList (depth start : Nat) : ∀ ts : List SyntaxTree,
    (rowsOfList depth start ts).filterMap Row.token? = Token.place start (leavesOfList ts)
  | [] => by simp [Token.place]
  | t :: ts => by
      rw [rowsOfList_cons, List.filterMap_append, tokens_rows depth start t,
        tokens_rowsOfList depth _ ts, leavesOfList_cons, Token.place_append, size_eq]

end

/-! ### The leaves of a node -/

/-- The row covers the lexemes `ms`, of lexemes `ls` that start at byte `start`. -/
def Row.Covers (start : Nat) (ls : List Lexeme) (r : Row) (ms : List Lexeme) : Prop :=
  ∃ before behind, ls = before ++ (ms ++ behind) ∧
    r.start = start + Utf8.size (before.flatMap (·.text)) ∧
    r.stop = r.start + Utf8.size (ms.flatMap (·.text))

/-- What a row covers does not depend on the lexemes behind. -/
theorem Row.Covers.append_right {start : Nat} {ls ms : List Lexeme} {r : Row}
    (h : r.Covers start ls ms) (ls' : List Lexeme) : r.Covers start (ls ++ ls') ms := by
  obtain ⟨before, behind, rfl, hstart, hstop⟩ := h
  exact ⟨before, behind ++ ls', by simp [List.append_assoc], hstart, hstop⟩

theorem Row.Covers.append_left {start : Nat} {ls' ms : List Lexeme} {r : Row} (ls : List Lexeme)
    (h : r.Covers (start + Utf8.size (ls.flatMap (·.text))) ls' ms) :
    r.Covers start (ls ++ ls') ms := by
  obtain ⟨before, behind, rfl, hstart, hstop⟩ := h
  refine ⟨ls ++ before, behind, by simp [List.append_assoc], ?_, hstop⟩
  rw [hstart, List.flatMap_append, Utf8.size_append, Nat.add_assoc]

mutual

/-- The row of a node covers the leaves of the node, which begin and end with significant
lexemes if the tree is tight. -/
theorem exists_covered (depth start : Nat) : ∀ t : SyntaxTree, Tight t →
    ∀ r ∈ rows depth start t, r.text = none →
      ∃ ms, r.Covers start (leaves t) ms ∧ (r.kind.isInner = true → SignificantEnds ms)
  | leaf l, _, r, hr, hnode => by
      rw [rows, List.mem_singleton] at hr
      subst hr
      cases hnode
  | node k ts, ht, r, hr, hnode => by
      obtain ⟨hends, hts⟩ := tight_node.mp ht
      rw [rows_node, List.mem_cons] at hr
      rw [leaves_node]
      rcases hr with rfl | hr
      · exact ⟨leavesOfList ts, ⟨[], [], by simp, by simp, by simp [sizeOfList_eq]⟩, hends⟩
      · exact exists_covered_list (depth + 1) start ts hts r hr hnode

/-- Every row of a node covers the leaves of that node, for trees in a row. -/
theorem exists_covered_list (depth start : Nat) : ∀ ts : List SyntaxTree, TightList ts →
    ∀ r ∈ rowsOfList depth start ts, r.text = none →
      ∃ ms, r.Covers start (leavesOfList ts) ms ∧ (r.kind.isInner = true → SignificantEnds ms)
  | [], _, r, hr, _ => by simp at hr
  | t :: ts, ht, r, hr, hnode => by
      obtain ⟨ht, hts⟩ := (tightList_cons _ _).mp ht
      rw [rowsOfList_cons, List.mem_append] at hr
      rw [leavesOfList_cons]
      rcases hr with hr | hr
      · obtain ⟨ms, hcovers, hends⟩ := exists_covered depth start t ht r hr hnode
        exact ⟨ms, hcovers.append_right _, hends⟩
      · rw [size_eq] at hr
        obtain ⟨ms, hcovers, hends⟩ := exists_covered_list depth _ ts hts r hr hnode
        exact ⟨ms, hcovers.append_left _, hends⟩

end

/-- A lexeme of a text as the token it makes there. -/
theorem mem_tokenize {text : List Char} {before behind : List Lexeme} {l : Lexeme}
    (h : lexemes text = before ++ l :: behind) :
    ⟨l, Utf8.size (before.flatMap (·.text))⟩ ∈ tokenize text := by
  rw [tokenize, h, Token.place_append, Nat.zero_add, Token.place]
  exact List.mem_append_right _ List.mem_cons_self

theorem mem_significant {ts : List Token} {t : Token} (h : t ∈ ts) (ht : t.kind.isTrivia = false) :
    t ∈ Token.significant ts := by
  rw [Token.significant, List.mem_filter, Token.isTrivia, ht]
  exact ⟨h, rfl⟩

/-- **The ends of a row.**  A row that covers lexemes with significant ends starts where a
significant token does and stops where one does, with some text in between. -/
theorem Row.Covers.significant {text : List Char} {r : Row} {ms : List Lexeme}
    (h : r.Covers 0 (lexemes text) ms) (hends : SignificantEnds ms) :
    (∃ t ∈ Token.significant (tokenize text), t.offset = r.start) ∧
      (∃ t ∈ Token.significant (tokenize text), t.stop = r.stop) ∧
      ms.flatMap (·.text) ≠ [] := by
  obtain ⟨before, behind, hls, hstart, hstop⟩ := h
  obtain ⟨⟨l, hl, hfirst⟩, ⟨l', hl', hlast⟩⟩ := hends
  rw [Nat.zero_add] at hstart
  obtain ⟨ms₁, rfl⟩ := List.head?_eq_some_iff.mp hl
  obtain ⟨ms₂, hms₂⟩ := List.getLast?_eq_some_iff.mp hl'
  have hmem := mem_tokenize hls
  refine ⟨⟨_, mem_significant hmem hfirst, hstart.symm⟩, ?_, ?_⟩
  · rw [hms₂] at hls hstop
    have hls' : lexemes text = (before ++ ms₂) ++ l' :: behind := by
      rw [hls]
      simp
    refine ⟨_, mem_significant (mem_tokenize hls') hlast, ?_⟩
    simp [Token.stop, hstop, hstart, Nat.add_assoc]
  · obtain ⟨-, -, -, -, htext, -⟩ := exists_around_of_mem_tokenize hmem
    intro hnil
    simp [htext] at hnil

end SqlCaret.Tree
