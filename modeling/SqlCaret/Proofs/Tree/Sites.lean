import Mathlib.Data.List.Chain
import SqlCaret.Proofs.Tree.Branches
import SqlCaret.Proofs.Tree.Rows

/-!
# Trees — sites

The nodes of a syntax tree as a flat list, each with the nodes it stands in.  The rows of the
sites are the rows of the nodes (`map_row_sites`), and a node is as deep as there are nodes around
it.

What stands around a site says which statement holds it (`owner?`), whether it hangs there on an
`ELSE` (`inElse`), and whether it is out of reach (`lost`): an `IF`, an `ELSE` or a `WHILE` takes
one statement, and tokens that no rule takes are no statement.

In a formed tree a statement starts with a token of its own, so no two start at the same byte
(`ordered_sites`).
-/

namespace SqlCaret

namespace Tree

/-- A node where it stands. -/
structure Site where
  row : Row
  /-- The kinds of the nodes right inside. -/
  inside : List Kind
  /-- The nodes that it stands in, the innermost first. -/
  around : List Row
deriving Repr, DecidableEq

/-- The row of a node of kind `k` with the children `ts`. -/
def rowOf (around : List Row) (start : Nat) (k : Kind) (ts : List SyntaxTree) : Row :=
  ⟨around.length, k, start, start + sizeOfList ts, none⟩

@[simp] theorem rowOf_kind (around : List Row) (start : Nat) (k : Kind) (ts : List SyntaxTree) :
    (rowOf around start k ts).kind = k := rfl

mutual

/-- The sites of a tree that starts at byte `start`. -/
def sites (around : List Row) (start : Nat) : SyntaxTree → List Site
  | leaf _ => []
  | node k ts =>
    ⟨rowOf around start k ts, nodeKinds ts, around⟩ ::
      sitesOfList (rowOf around start k ts :: around) start ts

/-- The sites of trees in a row of which the first starts at byte `start`. -/
def sitesOfList (around : List Row) (start : Nat) : List SyntaxTree → List Site
  | [] => []
  | t :: ts => sites around start t ++ sitesOfList around (start + size t) ts

end

/-- The statement node that is nearest around. -/
def owner? (around : List Row) : Option Row := around.find? (·.kind.isStatement)

/-- Whether an `ELSE` clause stands between a node and the statement that holds it. -/
def inElse (around : List Row) : Bool :=
  (around.takeWhile (!·.kind.isStatement)).any (·.kind == .elseClause)

/-- Whether an `ERROR` is around that stands where one statement is taken. -/
def lost : (around : List Row) → Bool
  | [] => false
  | r :: around => r.kind == .error && around.head?.any (·.kind.takesOne) || lost around

/-- Whether the node becomes a statement of the script. -/
def Site.isKept (s : Site) : Bool := s.row.kind.isStatement && !lost s.around

section
variable (around : List Row) (start : Nat)

@[simp] theorem sites_leaf (l : Lexeme) : sites around start (.leaf l) = [] := by rw [sites]

@[simp] theorem sites_node (k : Kind) (ts : List SyntaxTree) :
    sites around start (.node k ts) = ⟨rowOf around start k ts, nodeKinds ts, around⟩ ::
      sitesOfList (rowOf around start k ts :: around) start ts := by rw [sites]

@[simp] theorem sitesOfList_nil : sitesOfList around start [] = [] := by rw [sitesOfList]

@[simp] theorem sitesOfList_cons (t : SyntaxTree) (ts : List SyntaxTree) :
    sitesOfList around start (t :: ts) =
      sites around start t ++ sitesOfList around (start + size t) ts := by rw [sitesOfList]

end

mutual

/-- **The sites are the nodes of the tree**, in the order of its rows. -/
theorem map_row_sites (around : List Row) (start : Nat) : ∀ t : SyntaxTree,
    (sites around start t).map (·.row) =
      (rows around.length start t).filter (·.text.isNone)
  | leaf l => by rw [sites_leaf, rows]; rfl
  | node k ts => by
      have ih := map_row_sitesOfList (rowOf around start k ts :: around) start ts
      rw [sites_node, rows_node, List.map_cons, ih]
      rfl

/-- The rows of the sites of trees in a row, in the order of `rows`. -/
theorem map_row_sitesOfList (around : List Row) (start : Nat) : ∀ ts : List SyntaxTree,
    (sitesOfList around start ts).map (·.row) =
      (rowsOfList around.length start ts).filter (·.text.isNone)
  | [] => by simp
  | t :: ts => by
      rw [sitesOfList_cons, rowsOfList_cons, List.map_append, List.filter_append,
        map_row_sites around start t, map_row_sitesOfList around _ ts]

end

/-- Where no node is, there is no site. -/
theorem sitesOfList_eq_nil (around : List Row) (start : Nat) {ts : List SyntaxTree}
    (h : nodeKinds ts = []) : sitesOfList around start ts = [] := by
  induction ts generalizing start with
  | nil => rw [sitesOfList]
  | cons t ts ih =>
      cases t with
      | leaf l => rw [sitesOfList_cons, sites_leaf, List.nil_append, ih _ h]
      | node k cs => cases h

/-! ### What stands around -/

/-- A node stands right inside another: one deeper, and between its ends. -/
structure Row.StandsIn (r p : Row) : Prop where
  depth : r.depth = p.depth + 1
  start : p.start ≤ r.start
  stop : r.stop ≤ p.stop

/-- The nodes `around` stand in one another, and a tree in the innermost of them. -/
structure Nested (around : List Row) (start stop : Nat) : Prop where
  chain : around.IsChain Row.StandsIn
  head : ∀ p ∈ around.head?, around.length = p.depth + 1 ∧ p.start ≤ start ∧ stop ≤ p.stop

namespace Nested

variable {around : List Row} {start start' stop stop' : Nat}

theorem nil (start stop : Nat) : Nested [] start stop := ⟨.nil, fun _ hp => nomatch hp⟩

/-- What stands between two bytes stands between any around them. -/
theorem mono (h : Nested around start stop) (hstart : start ≤ start') (hstop : stop' ≤ stop) :
    Nested around start' stop' where
  chain := h.chain
  head := fun p hp =>
    have ⟨hlength, hle, hle'⟩ := h.head p hp
    ⟨hlength, Nat.le_trans hle hstart, Nat.le_trans hstop hle'⟩

/-- A node is one more to stand in. -/
theorem cons {k : Kind} {ts : List SyntaxTree} (h : Nested around start (start + sizeOfList ts)) :
    Nested (rowOf around start k ts :: around) start (start + sizeOfList ts) where
  chain := h.chain.cons fun p hp =>
    have ⟨hlength, hstart, hstop⟩ := h.head p hp
    ⟨hlength, hstart, hstop⟩
  head := by
    rintro p ⟨⟩
    exact ⟨rfl, Nat.le_refl _, Nat.le_refl _⟩

end Nested

mutual

/-- **What stands around a site is the way from it to the root**: as many nodes as it is deep, each
the site of a node and standing right inside the next. -/
theorem around_of_mem_sites {around : List Row} {start : Nat} : ∀ t : SyntaxTree,
    Nested around start (start + size t) → ∀ s ∈ sites around start t,
      s.row.depth = s.around.length ∧ (s.row :: s.around).IsChain Row.StandsIn ∧
        s.around ⊆ (sites around start t).map (·.row) ++ around
  | leaf l, _, s, hs => by simp at hs
  | node k ts, h, s, hs => by
      rw [size_node] at h
      rw [sites_node, List.mem_cons] at hs
      rw [sites_node, List.map_cons]
      rcases hs with rfl | hs
      · exact ⟨rfl, h.cons.chain, List.subset_append_right _ _⟩
      · obtain ⟨hdepth, hchain, hsub⟩ := around_of_mem_sitesOfList ts h.cons s hs
        refine ⟨hdepth, hchain, fun r hr => ?_⟩
        have := hsub hr
        simp only [List.mem_append, List.mem_cons] at this ⊢
        rw [or_assoc, or_left_comm]
        exact this

/-- The nodes around a site, for trees in a row. -/
theorem around_of_mem_sitesOfList {around : List Row} {start : Nat} : ∀ ts : List SyntaxTree,
    Nested around start (start + sizeOfList ts) → ∀ s ∈ sitesOfList around start ts,
      s.row.depth = s.around.length ∧ (s.row :: s.around).IsChain Row.StandsIn ∧
        s.around ⊆ (sitesOfList around start ts).map (·.row) ++ around
  | [], _, s, hs => by simp at hs
  | t :: ts, h, s, hs => by
      rw [sizeOfList_cons, ← Nat.add_assoc] at h
      rw [sitesOfList_cons, List.mem_append] at hs
      rw [sitesOfList_cons, List.map_append]
      rcases hs with hs | hs
      · obtain ⟨hdepth, hchain, hsub⟩ :=
          around_of_mem_sites t (h.mono (Nat.le_refl _) (Nat.le_add_right _ _)) s hs
        refine ⟨hdepth, hchain, List.Subset.trans hsub ?_⟩
        rw [List.append_assoc]
        exact List.append_subset_of_subset_of_subset (List.subset_append_left _ _)
          (List.subset_append_of_subset_right _ (List.subset_append_right _ _))
      · obtain ⟨hdepth, hchain, hsub⟩ :=
          around_of_mem_sitesOfList ts (h.mono (Nat.le_add_right _ _) (Nat.le_refl _)) s hs
        refine ⟨hdepth, hchain, List.Subset.trans hsub ?_⟩
        rw [List.append_assoc]
        exact List.subset_append_right _ _

end

/-! ### Out of reach -/

mutual

/-- What is out of reach has nothing inside that is not. -/
theorem isKept_of_lost {around : List Row} (h : lost around = true) (start : Nat) :
    ∀ t : SyntaxTree, ∀ s ∈ sites around start t, s.isKept = false
  | leaf l, s, hs => by simp at hs
  | node k ts, s, hs => by
      rw [sites_node, List.mem_cons] at hs
      rcases hs with rfl | hs
      · simp [Site.isKept, h]
      · refine isKept_of_lostOfList ?_ start ts s hs
        rw [lost, h, Bool.or_true]

/-- Inside of what is lost no node becomes a statement. -/
theorem isKept_of_lostOfList {around : List Row} (h : lost around = true) (start : Nat) :
    ∀ ts : List SyntaxTree, ∀ s ∈ sitesOfList around start ts, s.isKept = false
  | [], s, hs => by simp at hs
  | t :: ts, s, hs => by
      rw [sitesOfList_cons, List.mem_append] at hs
      rcases hs with hs | hs
      · exact isKept_of_lost h start t s hs
      · exact isKept_of_lostOfList h _ ts s hs

end

-- the statement of a `BEGIN CATCH` that stands where an `IF` takes its own
example : (sites [] 0 (.node .ifStatement [.leaf ⟨.word, ['I', 'F']⟩, .node .error
    [.leaf ⟨.word, ['B']⟩, .node .statement [.leaf ⟨.word, ['T']⟩]]])).map
      (fun s => (s.row.kind, s.isKept)) =
    [(.ifStatement, true), (.error, false), (.statement, false)] := by decide

/-! ### The order of statements -/

/-- Sites that start one after the other from byte `lo` on and before byte `hi`. -/
structure Ordered (lo hi : Nat) (ss : List Site) : Prop where
  pairwise : ss.Pairwise fun s s' => s.row.start < s'.row.start
  bounds : ∀ s ∈ ss, lo ≤ s.row.start ∧ s.row.start < hi

namespace Ordered

variable {lo mid hi : Nat} {s : Site} {ss ss' : List Site}

theorem nil (lo hi : Nat) : Ordered lo hi [] := ⟨.nil, by simp⟩

theorem mono {lo' hi' : Nat} (h : Ordered lo hi ss) (hlo : lo' ≤ lo) (hhi : hi ≤ hi') :
    Ordered lo' hi' ss where
  pairwise := h.pairwise
  bounds := fun s hs =>
    ⟨Nat.le_trans hlo (h.bounds s hs).1, Nat.lt_of_lt_of_le (h.bounds s hs).2 hhi⟩

theorem append (h : Ordered lo mid ss) (h' : Ordered mid hi ss') (hlo : lo ≤ mid)
    (hhi : mid ≤ hi) : Ordered lo hi (ss ++ ss') where
  pairwise := List.pairwise_append.mpr ⟨h.pairwise, h'.pairwise, fun s hs s' hs' =>
    Nat.lt_of_lt_of_le (h.bounds s hs).2 (h'.bounds s' hs').1⟩
  bounds := by
    intro s hs
    rcases List.mem_append.mp hs with hs | hs
    · exact (h.mono (Nat.le_refl _) hhi).bounds s hs
    · exact (h'.mono hlo (Nat.le_refl _)).bounds s hs

/-- A site in front of those that start behind its first token. -/
theorem cons (hs : s.row.start = lo) (hlo : lo < mid) (hhi : mid ≤ hi) (h : Ordered mid hi ss) :
    Ordered lo hi (s :: ss) where
  pairwise := .cons (fun s' hs' => hs ▸ Nat.lt_of_lt_of_le hlo (h.bounds s' hs').1) h.pairwise
  bounds := by
    intro s' hs'
    rcases List.mem_cons.mp hs' with rfl | hs'
    · exact ⟨Nat.le_of_eq hs.symm, hs ▸ Nat.lt_of_lt_of_le hlo hhi⟩
    · exact (h.mono (Nat.le_of_lt hlo) (Nat.le_refl _)).bounds s' hs'

end Ordered

/-- The bytes of the token that trees in a row begin with, if they do. -/
def leadSize : List SyntaxTree → Nat
  | .leaf l :: _ => Utf8.size l.text
  | _ => 0

/-- The first token is a part of the trees. -/
theorem leadSize_le (ts : List SyntaxTree) : leadSize ts ≤ sizeOfList ts := by
  unfold leadSize
  split
  · rw [sizeOfList_cons, size_leaf]
    exact Nat.le_add_right _ _
  · exact Nat.zero_le _

mutual

/-- **No two statements start at the same byte**, and they come in the order of their starts. -/
theorem ordered_sites (around : List Row) (start : Nat) : ∀ t : SyntaxTree, Formed t →
    (∀ l ∈ leaves t, l.text ≠ []) →
      Ordered start (start + size t) ((sites around start t).filter (·.row.kind.isStatement))
  | leaf l, _, _ => by simpa using Ordered.nil _ _
  | node k ts, hform, hleaves => by
      obtain ⟨-, hfirst, hts⟩ := formed_node.mp hform
      rw [leaves_node] at hleaves
      have ih := ordered_sitesOfList (rowOf around start k ts :: around) start ts hts hleaves
      have hle := leadSize_le ts
      rw [sites_node, size_node]
      by_cases hk : k.isStatement = true
      · rw [List.filter_cons, rowOf_kind, if_pos hk]
        -- the first token is the statement's own
        have hlead : 0 < leadSize ts := by
          rcases hfirst with rfl | rfl | ⟨l, us, rfl⟩
          · cases hk
          · cases hk
          · exact Nat.pos_of_ne_zero (mt Utf8.size_eq_zero_iff.mp (hleaves l (by simp)))
        exact .cons rfl (by omega) (by omega) ih
      · rw [List.filter_cons, rowOf_kind, if_neg hk]
        exact ih.mono (Nat.le_add_right _ _) (Nat.le_refl _)

/-- **No two statements start at the same byte**, for trees in a row. -/
theorem ordered_sitesOfList (around : List Row) (start : Nat) : ∀ ts : List SyntaxTree,
    FormedList ts → (∀ l ∈ leavesOfList ts, l.text ≠ []) →
      Ordered (start + leadSize ts) (start + sizeOfList ts)
        ((sitesOfList around start ts).filter (·.row.kind.isStatement))
  | [], _, _ => by simpa using Ordered.nil _ _
  | t :: ts, hform, hleaves => by
      obtain ⟨ht, hts⟩ := (formedList_cons _ _).mp hform
      rw [leavesOfList_cons] at hleaves
      have ih := ordered_sites around start t ht fun l hl =>
        hleaves l (List.mem_append_left _ hl)
      have ih' := ordered_sitesOfList around (start + size t) ts hts fun l hl =>
        hleaves l (List.mem_append_right _ hl)
      replace ih' := ih'.mono (Nat.le_add_right _ _) (Nat.le_refl _)
      rw [Nat.add_assoc, ← sizeOfList_cons] at ih'
      rw [sitesOfList_cons, List.filter_append]
      cases t with
      | leaf l => rwa [sites_leaf, List.filter_nil, List.nil_append]
      | node k us =>
          refine ih.append ih' (Nat.le_add_right _ _) ?_
          rw [sizeOfList_cons, ← Nat.add_assoc]
          exact Nat.le_add_right _ _

end

end Tree

end SqlCaret
