import SqlCaret.Syntax.Tree

/-!
# Trees — form

Which nodes can stand in which.  `Kind.holds k ks` says that a node of kind `k` may hold nodes of
the kinds `ks` in this order, tokens apart: a script holds batches with a separator between each
two, a batch or a block holds statements and errors, and so on.  A tree is `Formed` when each of
its nodes holds what it may, and each but the script and its batches begins with a token.

Leaves without a say do not disturb the form, so it can be stated of trees over any leaves.
-/

namespace SqlCaret

namespace Kind

/-- The kinds of the nodes that can stand among statements. -/
def isItem (k : Kind) : Bool := k.isStatement || k == .error

/-- The kinds without the first one, if that satisfies `p`. -/
def skip (p : Kind → Bool) : List Kind → List Kind
  | [] => []
  | k :: ks => if p k then ks else k :: ks

/-- Batches with one separator between each two of them. -/
def alternate : List Kind → Bool
  | [k] => k == .batch
  | k :: l :: ks => k == .batch && l == .separator && alternate ks
  | [] => false

/-- Whether a node of kind `k` may hold nodes of the kinds `ks`. -/
def holds (k : Kind) (ks : List Kind) : Bool :=
  match k with
  | .script => alternate ks
  | .batch | .block | .tryCatch | .error => ks.all isItem
  | .ifStatement =>
    (skip (· == .elseClause) (skip isItem (skip (· == .condition) ks))).isEmpty
  | .whileStatement => (skip isItem (skip (· == .condition) ks)).isEmpty
  | .elseClause => (skip isItem ks).isEmpty
  | _ => ks.isEmpty

/-- At most one kind, and that an item: the body of an `IF`, `ELSE` or `WHILE`. -/
def IsBody (ks : List Kind) : Prop := ks = [] ∨ ∃ k, isItem k = true ∧ ks = [k]

/-- A condition, a statement and an `ELSE`, each of them at most once. -/
theorem holds_ifStatement {cond yes no : List Kind} (hc : cond = [] ∨ cond = [.condition])
    (hy : IsBody yes) (hn : no = [] ∨ no = [.elseClause]) :
    holds .ifStatement (cond ++ yes ++ no) = true := by
  rcases hy with rfl | ⟨k, hk, rfl⟩
  · rcases hc with rfl | rfl <;> rcases hn with rfl | rfl <;> rfl
  · rcases hc with rfl | rfl <;> rcases hn with rfl | rfl <;> cases k <;> first | rfl | cases hk

/-- A condition and a statement, each of them at most once. -/
theorem holds_whileStatement {cond body : List Kind} (hc : cond = [] ∨ cond = [.condition])
    (hb : IsBody body) : holds .whileStatement (cond ++ body) = true := by
  rcases hb with rfl | ⟨k, hk, rfl⟩
  · rcases hc with rfl | rfl <;> rfl
  · rcases hc with rfl | rfl <;> cases k <;> first | rfl | cases hk

/-- One statement or none. -/
theorem holds_elseClause {body : List Kind} (hb : IsBody body) :
    holds .elseClause body = true := by
  rcases hb with rfl | ⟨k, hk, rfl⟩
  · rfl
  · cases k <;> first | rfl | cases hk

end Kind

namespace Tree

variable {α β : Type}

/-- The kinds of the nodes in a row of trees. -/
def nodeKinds (ts : List (Tree α)) : List Kind := ts.filterMap kind?

@[simp] theorem nodeKinds_nil : nodeKinds ([] : List (Tree α)) = [] := rfl

@[simp] theorem nodeKinds_leaf (a : α) (ts : List (Tree α)) :
    nodeKinds (leaf a :: ts) = nodeKinds ts := rfl

@[simp] theorem nodeKinds_node (k : Kind) (us ts : List (Tree α)) :
    nodeKinds (node k us :: ts) = k :: nodeKinds ts := rfl

@[simp] theorem nodeKinds_append (ts us : List (Tree α)) :
    nodeKinds (ts ++ us) = nodeKinds ts ++ nodeKinds us := List.filterMap_append

/-- Whether the first of the trees is a leaf. -/
def LeafFirst (ts : List (Tree α)) : Prop := ∃ a us, ts = leaf a :: us

mutual

/-- Every node holds what it may, and all but a script and its batches begin with a leaf. -/
def Formed : Tree α → Prop
  | leaf _ => True
  | node k ts =>
    k.holds (nodeKinds ts) = true ∧ (k = .script ∨ k = .batch ∨ LeafFirst ts) ∧ FormedList ts

/-- Every tree is formed. -/
def FormedList : List (Tree α) → Prop
  | [] => True
  | t :: ts => Formed t ∧ FormedList ts

end

@[simp] theorem formed_leaf (a : α) : Formed (leaf a) := by simp [Formed]

/-- What has to hold of a node, and what of those in it. -/
theorem formed_node {k : Kind} {ts : List (Tree α)} :
    Formed (node k ts) ↔
      k.holds (nodeKinds ts) = true ∧ (k = .script ∨ k = .batch ∨ LeafFirst ts) ∧
        FormedList ts := by
  rw [Formed]

@[simp] theorem formedList_nil : FormedList ([] : List (Tree α)) := by simp [FormedList]

@[simp] theorem formedList_cons (t : Tree α) (ts : List (Tree α)) :
    FormedList (t :: ts) ↔ Formed t ∧ FormedList ts := by rw [FormedList]

@[simp] theorem formedList_append (ts us : List (Tree α)) :
    FormedList (ts ++ us) ↔ FormedList ts ∧ FormedList us := by
  induction ts with
  | nil => simp
  | cons t ts ih => simp [ih, and_assoc]

/-- Trees that can stand among statements: tokens, statements and errors, each formed. -/
structure IsRow (ts : List (Tree α)) : Prop where
  items : (nodeKinds ts).all Kind.isItem = true
  formed : FormedList ts

namespace IsRow

theorem nil : IsRow ([] : List (Tree α)) := ⟨rfl, formedList_nil⟩

theorem append {ts us : List (Tree α)} (ht : IsRow ts) (hu : IsRow us) : IsRow (ts ++ us) where
  items := by rw [nodeKinds_append, List.all_append, ht.items, hu.items]; rfl
  formed := (formedList_append ts us).mpr ⟨ht.formed, hu.formed⟩

/-- A statement or an error can stand among statements. -/
theorem node {k : Kind} {ts : List (Tree α)} (hk : k.isItem = true)
    (h : Formed (.node k ts)) : IsRow [Tree.node k ts] where
  items := by simp [hk]
  formed := by simp [h]

end IsRow

/-- Leaves alone. -/
def AllLeaves (ts : List (Tree α)) : Prop := ∀ t ∈ ts, ∃ a, t = leaf a

/-- Tokens are no nodes. -/
theorem AllLeaves.nodeKinds_eq {ts : List (Tree α)} (h : AllLeaves ts) : nodeKinds ts = [] := by
  rw [nodeKinds, List.filterMap_eq_nil_iff]
  intro t ht
  obtain ⟨a, rfl⟩ := h t ht
  rfl

/-- Tokens have nothing to hold. -/
theorem AllLeaves.formedList {ts : List (Tree α)} (h : AllLeaves ts) : FormedList ts := by
  induction ts with
  | nil => simp
  | cons t ts ih =>
      obtain ⟨a, rfl⟩ := h t List.mem_cons_self
      simp [ih fun u hu => h u (List.mem_cons_of_mem _ hu)]

/-- Tokens can stand among statements. -/
theorem AllLeaves.isRow {ts : List (Tree α)} (h : AllLeaves ts) : IsRow ts where
  items := by rw [h.nodeKinds_eq]; rfl
  formed := h.formedList

theorem AllLeaves.append {ts us : List (Tree α)} (ht : AllLeaves ts) (hu : AllLeaves us) :
    AllLeaves (ts ++ us) := fun t h => (List.mem_append.mp h).elim (ht t) (hu t)

theorem allLeaves_map_leaf (as : List α) : AllLeaves (as.map leaf) := by
  intro t ht
  obtain ⟨a, -, rfl⟩ := List.mem_map.mp ht
  exact ⟨a, rfl⟩

@[simp] theorem leavesOfList_map_leaf (as : List α) : leavesOfList (as.map leaf) = as := by
  induction as with
  | nil => simp
  | cons a as ih => simp [ih]

end Tree

end SqlCaret
