import SqlCaret.Proofs.Tree.Woven
import SqlCaret.Syntax.Outline

/-!
# Trees — whole nodes

What a node needs to be complete.  `k.IsWhole c` says it of a node of kind `k` with the content
`c`: a block has its `END`, the sections of a `TRY` have theirs, an `IF` has its condition and a
statement, the parentheses of a statement are balanced, and an error is never whole.

Only the kinds of tokens and the keywords they spell have a say, their `Sign`.  So it can be asked
of outlines and of syntax trees alike, and weaving keeps the answer (`Weaves.sameSigns`).
-/

namespace SqlCaret

open SqlCaret.Tree

/-- What the grammar sees of a token, apart from its place on the line and the separator. -/
structure Sign where
  kind : Kind
  keyword : Option Keyword
deriving Repr, DecidableEq

/-- Every mark has a sign, for marks stand for significant tokens. -/
def Mark.sign? (m : Mark) : Option Sign := some ⟨m.kind, m.keyword⟩

/-- White space and comments have no sign. -/
def Lexeme.sign? (l : Lexeme) : Option Sign :=
  if l.kind.isTrivia then none
  else some ⟨l.kind, if l.kind = .word then Keyword.ofWord? l.text else none⟩

/-- What a node holds, as far as it matters to whether the node is whole. -/
structure Content where
  /-- The tokens right inside. -/
  direct : List Sign
  /-- The kinds of the nodes right inside. -/
  nodes : List Kind
  /-- The tokens at any depth. -/
  tokens : List Sign

namespace Kind

/-- Parentheses match: none is closed that is not open, and none is left open. -/
structure Balanced (ks : List Kind) : Prop where
  sane : ∀ p, p <+: ks → p.count .rightParen ≤ p.count .leftParen
  settled : ks.count .rightParen = ks.count .leftParen

/-- Some statement stands right inside. -/
def HasStatement (ks : List Kind) : Prop := ∃ k ∈ ks, k.isStatement = true

/-- Whether a node of kind `k` with this content is complete. -/
def IsWhole (k : Kind) (c : Content) : Prop :=
  match k with
  | .error => False
  | .block => ∃ s ∈ c.direct, s.keyword = some .END
  | .tryCatch =>
    ∃ opening tried caught closing, c.direct.map (·.keyword) =
      opening ++ [some .END, some .TRY] ++ tried ++ [some .BEGIN, some .CATCH] ++ caught ++
        [some .END, some .CATCH] ++ closing
  | .ifStatement | .whileStatement => .condition ∈ c.nodes ∧ HasStatement c.nodes
  | .elseClause => HasStatement c.nodes
  | .statement | .condition => Balanced (c.tokens.map (·.kind))
  | _ => True

end Kind

namespace Tree

variable {α : Type} (sign? : α → Option Sign)

/-- The signs of the leaves right among the trees. -/
def directSigns : List (Tree α) → List Sign
  | [] => []
  | leaf a :: ts => (sign? a).toList ++ directSigns ts
  | node _ _ :: ts => directSigns ts

/-- What a node holds that has these children. -/
def content (ts : List (Tree α)) : Content :=
  ⟨directSigns sign? ts, nodeKinds ts, (leavesOfList ts).filterMap sign?⟩

mutual

/-- Every node of the tree is whole. -/
def Whole : Tree α → Prop
  | leaf _ => True
  | node k ts => k.IsWhole (content sign? ts) ∧ WholeList ts

/-- Every node of the trees is whole. -/
def WholeList : List (Tree α) → Prop
  | [] => True
  | t :: ts => Whole t ∧ WholeList ts

end

variable {sign?}

@[simp] theorem whole_leaf (a : α) : Whole sign? (leaf a) := by simp [Whole]

/-- A node is whole if its content is and those in it are. -/
theorem whole_node {k : Kind} {ts : List (Tree α)} :
    Whole sign? (node k ts) ↔ k.IsWhole (content sign? ts) ∧ WholeList sign? ts := by rw [Whole]

@[simp] theorem wholeList_nil : WholeList sign? [] := by simp [WholeList]

@[simp] theorem wholeList_cons (t : Tree α) (ts : List (Tree α)) :
    WholeList sign? (t :: ts) ↔ Whole sign? t ∧ WholeList sign? ts := by rw [WholeList]

@[simp] theorem wholeList_append (ts us : List (Tree α)) :
    WholeList sign? (ts ++ us) ↔ WholeList sign? ts ∧ WholeList sign? us := by
  induction ts with
  | nil => simp
  | cons t ts ih => simp [ih, and_assoc]

/-- Tokens lack nothing. -/
theorem AllLeaves.wholeList {ts : List (Tree α)} (h : AllLeaves ts) : WholeList sign? ts := by
  induction ts with
  | nil => simp
  | cons t ts ih =>
      obtain ⟨a, rfl⟩ := h t List.mem_cons_self
      simp [ih fun u hu => h u (List.mem_cons_of_mem _ hu)]

/-- Tokens in front lack nothing. -/
theorem wholeList_leaves_append {ts us : List (Tree α)} (h : AllLeaves ts) :
    WholeList sign? (ts ++ us) ↔ WholeList sign? us := by
  rw [wholeList_append]
  exact and_iff_right h.wholeList

theorem wholeList_append_leaves {ts us : List (Tree α)} (h : AllLeaves us) :
    WholeList sign? (ts ++ us) ↔ WholeList sign? ts := by
  rw [wholeList_append]
  exact and_iff_left h.wholeList

@[simp] theorem directSigns_nil : directSigns sign? [] = [] := by rw [directSigns]

@[simp] theorem directSigns_leaf (a : α) (ts : List (Tree α)) :
    directSigns sign? (leaf a :: ts) = (sign? a).toList ++ directSigns sign? ts := by
  rw [directSigns]

@[simp] theorem directSigns_node (k : Kind) (us ts : List (Tree α)) :
    directSigns sign? (node k us :: ts) = directSigns sign? ts := by rw [directSigns]

@[simp] theorem directSigns_append (ts us : List (Tree α)) :
    directSigns sign? (ts ++ us) = directSigns sign? ts ++ directSigns sign? us := by
  induction ts with
  | nil => simp
  | cons t ts ih =>
      cases t with
      | leaf a => simp [ih]
      | node k vs => simp [ih]

end Tree

/-- White space and comments are not seen. -/
theorem Lexeme.sign?_of_isTrivia {l : Lexeme} (h : l.kind.isTrivia = true) : l.sign? = none := by
  rw [sign?, if_pos h]

/-- Trees over marks and trees over lexemes with the same signs. -/
structure SameSigns (os : List Outline) (ts : List SyntaxTree) : Prop where
  tokens : (leavesOfList ts).filterMap Lexeme.sign? = (leavesOfList os).filterMap Mark.sign?
  direct : directSigns Lexeme.sign? ts = directSigns Mark.sign? os
  whole : WholeList Lexeme.sign? ts ↔ WholeList Mark.sign? os

/-- **Weaving keeps the signs** of the tokens at any depth and right inside, and what is whole. -/
theorem Weaves.sameSigns {os : List Outline} {ls rest : List Lexeme} {ts : List SyntaxTree}
    (h : Weaves Mark.kind os ls ts rest) {behind : List Sign}
    (hls : ls.filterMap Lexeme.sign? = (leavesOfList os).filterMap Mark.sign? ++ behind) :
    SameSigns os ts ∧ rest.filterMap Lexeme.sign? = behind := by
  induction h generalizing behind with
  | nil ls => exact ⟨⟨by simp, by simp, by simp⟩, by simpa using hls⟩
  | @trivia os l ls rest ts ht _ _ ih =>
      -- white space has no sign on either side
      have hnone := Lexeme.sign?_of_isTrivia ht
      rw [List.filterMap_cons_none hnone] at hls
      obtain ⟨⟨htokens, hdirect, hwhole⟩, hrest⟩ := ih hls
      exact ⟨⟨by simpa [hnone] using htokens, by simpa [hnone] using hdirect,
        by simpa using hwhole⟩, hrest⟩
  | @leaf os m l ls rest ts hl hk _ ih =>
      have hsome : l.sign? =
          some ⟨l.kind, if l.kind = .word then Keyword.ofWord? l.text else none⟩ := by
        rw [Lexeme.sign?, hl]; rfl
      rw [List.filterMap_cons_some hsome, leavesOfList_cons, leaves_leaf, List.singleton_append,
        List.filterMap_cons_some (f := Mark.sign?) rfl, List.cons_append, List.cons.injEq] at hls
      obtain ⟨hsign, hls⟩ := hls
      rw [hsign] at hsome
      obtain ⟨⟨htokens, hdirect, hwhole⟩, hrest⟩ := ih hls
      refine ⟨⟨?_, ?_, ?_⟩, hrest⟩
      · simpa [hsome, Mark.sign?] using htokens
      · simpa [hsome, Mark.sign?] using hdirect
      · simpa using hwhole
  | @node k os os' ls ls₁ rest us ts _ inner w ih₁ ih₂ =>
      rw [leavesOfList_cons, leaves_node, List.filterMap_append, List.append_assoc] at hls
      obtain ⟨⟨htokens, hdirect, hwhole⟩, hls₁⟩ := ih₁ hls
      obtain ⟨⟨htokens', hdirect', hwhole'⟩, hrest⟩ := ih₂ hls₁
      -- inside of the node the signs are the same, so its content is, and so the answer
      have hcontent : content Lexeme.sign? us = content Mark.sign? os := by
        rw [content, content, hdirect, htokens, inner.nodeKinds_eq]
      refine ⟨⟨?_, ?_, ?_⟩, hrest⟩
      · simp [htokens, htokens']
      · simp [hdirect']
      · rw [wholeList_cons, wholeList_cons, whole_node, whole_node, hcontent, hwhole, hwhole']

/-- The signs of marks are those of the lexemes that they were read from. -/
theorem Mark.filterMap_sign?_read (separator : List Char) (o b : Bool) (ls : List Lexeme) :
    (read separator o b ls).filterMap sign? = ls.filterMap Lexeme.sign? := by
  induction ls generalizing o b with
  | nil => rfl
  | cons l ls ih =>
      rw [read]
      cases hl : l.kind.isTrivia with
      | true =>
          rw [List.filterMap_cons_none (Lexeme.sign?_of_isTrivia hl), ← ih]
          rfl
      | false => simp [Lexeme.sign?, hl, ih, sign?, ofLexeme]

end SqlCaret
