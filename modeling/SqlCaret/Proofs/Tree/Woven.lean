import SqlCaret.Proofs.Tree.Laid

/-!
# Trees — woven

What the building of a syntax tree comes to, without its stack.  `Weaves kindOf os ls ts rest`
says that the trees `os` laid over the lexemes `ls` are the syntax trees `ts` with the lexemes
`rest` left over: a leaf takes the next lexeme, a node what its children take, and white space
and comments stand in front of whichever comes next.

The machine does just that (`Weaves.ofEvents?_eq`), it never fails where the leaves are as many
as the significant lexemes and of the same kinds (`exists_weaves`), and no lexeme is lost
(`Weaves.leaves_eq`).  A woven tree has the form of the tree it was woven from
(`Weaves.formedList`), and a node in it begins and ends with significant lexemes
(`Weaves.tightList`).
-/

namespace SqlCaret

open SqlCaret.Tree

/-- Lexemes that begin and end with a significant one. -/
def SignificantEnds (ls : List Lexeme) : Prop :=
  (∃ l ∈ ls.head?, l.kind.isTrivia = false) ∧ ∃ l ∈ ls.getLast?, l.kind.isTrivia = false

variable {α : Type} {kindOf : α → Kind}

/-- The trees `os` laid over the lexemes `ls` are `ts`, and `rest` is left. -/
inductive Weaves (kindOf : α → Kind) :
    List (Tree α) → List Lexeme → List SyntaxTree → List Lexeme → Prop where
  | nil (ls : List Lexeme) : Weaves kindOf [] ls [] ls
  | trivia {os : List (Tree α)} {l : Lexeme} {ls rest : List Lexeme} {ts : List SyntaxTree}
      (h : l.kind.isTrivia = true) (hos : os ≠ []) (w : Weaves kindOf os ls ts rest) :
      Weaves kindOf os (l :: ls) (.leaf l :: ts) rest
  | leaf {os : List (Tree α)} {a : α} {l : Lexeme} {ls rest : List Lexeme}
      {ts : List SyntaxTree} (h : l.kind.isTrivia = false) (hk : kindOf a = l.kind)
      (w : Weaves kindOf os ls ts rest) :
      Weaves kindOf (.leaf a :: os) (l :: ls) (.leaf l :: ts) rest
  | node {k : Kind} {os os' : List (Tree α)} {ls ls₁ rest : List Lexeme}
      {us ts : List SyntaxTree} (h : SignificantFirst ls) (inner : Weaves kindOf os ls us ls₁)
      (w : Weaves kindOf os' ls₁ ts rest) :
      Weaves kindOf (.node k os :: os') ls (.node k us :: ts) rest

namespace Weaves

variable {os os' : List (Tree α)} {ls ls' rest : List Lexeme} {ts ts' : List SyntaxTree}

theorem append (h : Weaves kindOf os ls ts ls') (h' : Weaves kindOf os' ls' ts' rest) :
    Weaves kindOf (os ++ os') ls (ts ++ ts') rest := by
  induction h with
  | nil ls => exact h'
  | trivia ht hos _ ih => exact .trivia ht (by simp [hos]) (ih h')
  | leaf ht hk _ ih => exact .leaf ht hk (ih h')
  | node hs inner _ _ ih => exact .node hs inner (ih h')

/-- White space and comments in front of a tree. -/
theorem trivias (h : Weaves kindOf os ls ts rest) (hos : os ≠ []) {ws : List Lexeme}
    (hws : ∀ l ∈ ws, l.kind.isTrivia = true) :
    Weaves kindOf os (ws ++ ls) (ws.map .leaf ++ ts) rest := by
  induction ws with
  | nil => exact h
  | cons l ws ih =>
      exact .trivia (hws l List.mem_cons_self) hos
        (ih fun l' h' => hws l' (List.mem_cons_of_mem _ h'))

/-- **No lexeme is lost and none comes twice.** -/
theorem leaves_eq (h : Weaves kindOf os ls ts rest) : ls = leavesOfList ts ++ rest := by
  induction h with
  | nil ls => rfl
  | trivia _ _ _ ih => simp [← ih]
  | leaf _ _ _ ih => simp [← ih]
  | node _ _ _ ih₁ ih₂ => simp [ih₁, ih₂, List.append_assoc]

/-- Weaving adds no node and leaves none out. -/
theorem nodeKinds_eq (h : Weaves kindOf os ls ts rest) : nodeKinds ts = nodeKinds os := by
  induction h with
  | nil ls => rfl
  | trivia _ _ _ ih => simp [ih]
  | leaf _ _ _ ih => simp [ih]
  | node _ _ _ _ ih => simp [ih]

/-- What begins with a token still does, for white space goes in front of a node. -/
theorem leafFirst (h : Weaves kindOf os ls ts rest) (hos : LeafFirst os) : LeafFirst ts := by
  cases h with
  | nil =>
      obtain ⟨a, us, hnil⟩ := hos
      cases hnil
  | trivia => exact ⟨_, _, rfl⟩
  | leaf => exact ⟨_, _, rfl⟩
  | node =>
      obtain ⟨a, us, hnode⟩ := hos
      cases hnode

/-- **Weaving keeps the form.** -/
theorem formedList (h : Weaves kindOf os ls ts rest) (hos : FormedList os) : FormedList ts := by
  induction h with
  | nil ls => exact formedList_nil
  | trivia _ _ _ ih => exact (formedList_cons _ _).mpr ⟨formed_leaf _, ih hos⟩
  | leaf _ _ _ ih =>
      exact (formedList_cons _ _).mpr ⟨formed_leaf _, ih ((formedList_cons _ _).mp hos).2⟩
  | node _ inner _ ih₁ ih₂ =>
      obtain ⟨hnode, hrest⟩ := (formedList_cons _ _).mp hos
      obtain ⟨hholds, hfirst, hform⟩ := formed_node.mp hnode
      refine (formedList_cons _ _).mpr ⟨formed_node.mpr ⟨?_, ?_, ih₁ hform⟩, ih₂ hrest⟩
      · rw [inner.nodeKinds_eq, hholds]
      · exact hfirst.imp_right (Or.imp_right inner.leafFirst)

end Weaves

/-! ### The machine -/

/-- Weaving is laying, where the events give each token the kind that it has. -/
theorem Weaves.exists_lays {os : List (Tree α)} {ls rest : List Lexeme} {ts : List SyntaxTree}
    (h : Weaves kindOf os ls ts rest) :
    ∃ us, Lays kindOf os ls us rest ∧ shownOfList us = ts := by
  induction h with
  | nil ls => exact ⟨[], .nil ls, rfl⟩
  | trivia ht hos _ ih =>
      obtain ⟨us, hlays, rfl⟩ := ih
      exact ⟨_, .trivia ht hos hlays, by simp [Leaf.shown]⟩
  | leaf ht hk _ ih =>
      obtain ⟨us, hlays, rfl⟩ := ih
      exact ⟨_, .leaf ht hlays, by simp [Leaf.shown, hk]⟩
  | node hs _ _ ih₁ ih₂ =>
      obtain ⟨us₁, hinner, rfl⟩ := ih₁
      obtain ⟨us₂, hlays, rfl⟩ := ih₂
      exact ⟨_, .node hs hinner hlays, by simp⟩

/-- **The events of a node make the woven tree**, with the white space at the very end in its
root. -/
theorem Weaves.ofEvents?_eq {os : List (Tree α)} {ls rest : List Lexeme}
    {ts : List SyntaxTree} (h : Weaves kindOf os ls ts rest) (k : Kind)
    (hrest : ∀ l ∈ rest, l.kind.isTrivia = true) :
    Tree.ofEvents? ls (events kindOf (.node k os)) =
      some (.node k (ts ++ rest.map .leaf)) := by
  have htake : (rest ++ []).takeWhile (·.kind.isTrivia) = rest ++ [] :=
    List.takeWhile_append_of_pos hrest
  rw [List.append_nil] at htake
  obtain ⟨us, hlays, rfl⟩ := h.exists_lays
  rw [hlays.ofEvents?_eq, htake, shown_node, shownOfList_append, shownOfList_blanks]

/-! ### Where there is a tree to weave -/

mutual

/-- A tree can be woven over lexemes that begin with significant ones of the right kinds. -/
theorem exists_weaves_tree : ∀ (o : Tree α) (ls : List Lexeme) (ks : List Kind),
    significantKinds ls = (leaves o).map kindOf ++ ks →
      ∃ ts rest, Weaves kindOf [o] ls ts rest ∧ significantKinds rest = ks
  | .leaf a, ls, ks, h => by
      obtain ⟨ws, ls', rfl, hws, hfirst⟩ := exists_trivia_append ls
      rw [significantKinds_trivia_append hws] at h
      cases ls' with
      | nil => simp [significantKinds] at h
      | cons l ls' =>
          have hl : l.kind.isTrivia = false := hfirst l rfl
          simp only [significantKinds, List.filter_cons, hl, Bool.not_false, if_true,
            List.map_cons, leaves_leaf, List.map_nil, List.singleton_append,
            List.cons.injEq] at h
          exact ⟨_, ls', (Weaves.leaf hl h.1.symm (.nil ls')).trivias (by simp) hws, h.2⟩
  | .node k os, ls, ks, h => by
      obtain ⟨ws, ls', rfl, hws, hfirst⟩ := exists_trivia_append ls
      rw [significantKinds_trivia_append hws, leaves_node] at h
      obtain ⟨us, rest, hos, hrest⟩ := exists_weaves os ls' ks h
      exact ⟨_, rest, (Weaves.node hfirst hos (.nil rest)).trivias (by simp) hws, hrest⟩

/-- **Trees can be woven over lexemes of the same kinds**, and the others are left over. -/
theorem exists_weaves : ∀ (os : List (Tree α)) (ls : List Lexeme) (ks : List Kind),
    significantKinds ls = (leavesOfList os).map kindOf ++ ks →
      ∃ ts rest, Weaves kindOf os ls ts rest ∧ significantKinds rest = ks
  | [], ls, ks, h => ⟨[], ls, .nil ls, by simpa using h⟩
  | o :: os, ls, ks, h => by
      rw [leavesOfList_cons, List.map_append, List.append_assoc] at h
      obtain ⟨us, ls₁, ho, h₁⟩ := exists_weaves_tree o ls _ h
      obtain ⟨ts, rest, hos, h₂⟩ := exists_weaves os ls₁ ks h₁
      exact ⟨us ++ ts, rest, ho.append hos, h₂⟩

end

/-! ### Tight nodes -/

/-- The kinds of the nodes that hold at least one token. -/
def Kind.isInner (k : Kind) : Bool := k != .script && k != .batch

mutual

/-- Every node but a script and its batches begins and ends with a significant lexeme. -/
def Tight : SyntaxTree → Prop
  | .leaf _ => True
  | .node k ts => (k.isInner = true → SignificantEnds (leavesOfList ts)) ∧ TightList ts

/-- Every node of the trees is tight. -/
def TightList : List SyntaxTree → Prop
  | [] => True
  | t :: ts => Tight t ∧ TightList ts

end

/-- What has to hold of a node, and what of those in it. -/
theorem tight_node {k : Kind} {ts : List SyntaxTree} :
    Tight (.node k ts) ↔
      (k.isInner = true → SignificantEnds (leavesOfList ts)) ∧ TightList ts := by
  rw [Tight]

@[simp] theorem tightList_nil : TightList [] := by simp [TightList]

@[simp] theorem tightList_cons (t : SyntaxTree) (ts : List SyntaxTree) :
    TightList (t :: ts) ↔ Tight t ∧ TightList ts := by rw [TightList]

@[simp] theorem tight_leaf (l : Lexeme) : Tight (.leaf l) := by simp [Tight]

@[simp] theorem tightList_append (ts us : List SyntaxTree) :
    TightList (ts ++ us) ↔ TightList ts ∧ TightList us := by
  induction ts with
  | nil => simp
  | cons t ts ih => simp [ih, and_assoc]

theorem tightList_map_leaf (ls : List Lexeme) : TightList (ls.map .leaf) := by
  induction ls with
  | nil => simp
  | cons l ls ih => simpa using ih

/-- Statements and errors hold at least one token. -/
theorem Kind.isInner_of_isItem {k : Kind} (h : k.isItem = true) : k.isInner = true := by
  cases k <;> first | rfl | cases h

/-- What holds of a kind that may be skipped and of the others holds of all. -/
theorem Kind.all_of_skip {p q : Kind → Bool} (hpq : ∀ k, p k = true → q k = true)
    {ks : List Kind} (h : (skip p ks).all q = true) : ks.all q = true := by
  cases ks with
  | nil => rfl
  | cons k ks =>
      rw [skip] at h
      split at h
      · rename_i hp
        rw [List.all_cons, hpq k hp, h]
        rfl
      · exact h

/-- What is so of every kind that may stand in something else than a script. -/
theorem Kind.all_of_holds {p : Kind → Bool} (hitem : ∀ k, k.isItem = true → p k = true)
    (hcondition : p .condition = true) (helse : p .elseClause = true) {k : Kind} {ks : List Kind}
    (hk : k ≠ .script) (h : k.holds ks = true) : ks.all p = true := by
  have hitems : ks.all isItem = true → ks.all p = true := fun hall =>
    List.all_eq_true.mpr fun k hk => hitem k (List.all_eq_true.mp hall k hk)
  have hempty : ∀ {ks : List Kind}, ks.isEmpty = true → ks.all p = true := by
    intro ks h
    rw [List.isEmpty_iff.mp h]
    rfl
  have hone : ∀ k₀ : Kind, p k₀ = true → ∀ k, (k == k₀) = true → p k = true := by
    intro k₀ h₀ k hk
    rw [eq_of_beq hk, h₀]
  cases k with
  | script => exact absurd rfl hk
  | batch => exact hitems h
  | block => exact hitems h
  | tryCatch => exact hitems h
  | error => exact hitems h
  | ifStatement =>
      exact all_of_skip (hone _ hcondition) (all_of_skip hitem
        (all_of_skip (hone _ helse) (hempty h)))
  | whileStatement => exact all_of_skip (hone _ hcondition) (all_of_skip hitem (hempty h))
  | elseClause => exact all_of_skip hitem (hempty h)
  | _ => exact hempty h

/-- Only a script holds batches, and nothing holds a script. -/
theorem Kind.all_isInner_of_holds {k : Kind} {ks : List Kind} (hk : k ≠ .script)
    (h : k.holds ks = true) : ks.all Kind.isInner = true :=
  all_of_holds (fun _ => isInner_of_isItem) rfl rfl hk h

namespace Weaves

variable {os : List (Tree α)} {ls rest : List Lexeme} {ts : List SyntaxTree}

/-- No trees weave into no trees, so white space at the end is left over. -/
theorem eq_nil (h : Weaves kindOf [] ls ts rest) : ts = [] := by
  cases h with
  | nil => rfl
  | trivia _ hos => exact absurd rfl hos

theorem last_significant_append {ls' : List Lexeme} (ls : List Lexeme)
    (h : ∃ l ∈ ls'.getLast?, l.kind.isTrivia = false) :
    ∃ l ∈ (ls ++ ls').getLast?, l.kind.isTrivia = false := by
  obtain ⟨l, hl, hsig⟩ := h
  refine ⟨l, ?_, hsig⟩
  rw [List.getLast?_append, Option.mem_def.mp hl]
  rfl

/-- What is woven from something that holds a token ends with a significant lexeme. -/
theorem last_significant (h : Weaves kindOf os ls ts rest) (hne : os ≠ [])
    (hform : FormedList os) (hinner : (nodeKinds os).all Kind.isInner = true) :
    ∃ l ∈ (leavesOfList ts).getLast?, l.kind.isTrivia = false := by
  induction h with
  | nil ls => exact absurd rfl hne
  | @trivia os l ls rest ts _ _ _ ih =>
      -- something stands behind white space, and it is what comes last
      rw [leavesOfList_cons]
      exact last_significant_append _ (ih hne hform hinner)
  | @leaf os a l ls rest ts hl _ w ih =>
      rw [leavesOfList_cons]
      by_cases hos : os = []
      · subst hos
        rw [w.eq_nil]
        exact ⟨l, rfl, hl⟩
      · exact last_significant_append _ (ih hos ((formedList_cons _ _).mp hform).2 hinner)
  | @node k os os' ls ls₁ rest us ts _ inner w ih₁ ih₂ =>
      rw [leavesOfList_cons, leaves_node]
      obtain ⟨hnode, hrest⟩ := (formedList_cons _ _).mp hform
      obtain ⟨hholds, hfirst, hchildren⟩ := formed_node.mp hnode
      rw [nodeKinds_node, List.all_cons, Bool.and_eq_true] at hinner
      by_cases hos : os' = []
      · subst hos
        rw [w.eq_nil, leavesOfList_nil, List.append_nil]
        have hk : k ≠ .script ∧ k ≠ .batch := by simpa [Kind.isInner] using hinner.1
        obtain ⟨a, us', rfl⟩ := (hfirst.resolve_left hk.1).resolve_left hk.2
        exact ih₁ (by simp) hchildren (Kind.all_isInner_of_holds hk.1 hholds)
      · exact last_significant_append _ (ih₂ hos hrest hinner.2)

/-- **A woven node begins and ends with a significant lexeme.** -/
theorem tightList (h : Weaves kindOf os ls ts rest) (hform : FormedList os) : TightList ts := by
  induction h with
  | nil ls => exact tightList_nil
  | trivia _ _ _ ih => exact (tightList_cons _ _).mpr ⟨tight_leaf _, ih hform⟩
  | leaf _ _ _ ih =>
      exact (tightList_cons _ _).mpr ⟨tight_leaf _, ih ((formedList_cons _ _).mp hform).2⟩
  | @node k os os' ls ls₁ rest us ts hs inner _ ih₁ ih₂ =>
      obtain ⟨hnode, hrest⟩ := (formedList_cons _ _).mp hform
      obtain ⟨hholds, hfirst, hform⟩ := formed_node.mp hnode
      refine (tightList_cons _ _).mpr ⟨tight_node.mpr ⟨?_, ih₁ hform⟩, ih₂ hrest⟩
      intro hinner
      have hk : k ≠ .script ∧ k ≠ .batch := by simpa [Kind.isInner] using hinner
      have hleaf := (hfirst.resolve_left hk.1).resolve_left hk.2
      obtain ⟨l, us', rfl⟩ := inner.leafFirst hleaf
      refine ⟨⟨l, by simp, hs l ?_⟩, ?_⟩
      · rw [inner.leaves_eq]
        simp
      · obtain ⟨a, os₁, rfl⟩ := hleaf
        exact inner.last_significant (by simp) hform (Kind.all_isInner_of_holds hk.1 hholds)

end Weaves

end SqlCaret
