import Mathlib.Data.List.Forall2
import SqlCaret.Proofs.Statement.Parsed
import SqlCaret.Proofs.Statement.Placed
import SqlCaret.Proofs.Tree.Sites

/-!
# Statement — exact

The statements of a script are the statement nodes of the syntax tree that are in reach, one for
each and in the same order.  `Placed.IsAt` says that a statement is of the kind and the span of a
node, and that it hangs where the node stands; `ParsedScript.statements_are_nodes` says that this is
so of all.

The form of the tree is needed where one statement is taken and others would be passed over: there
is no other one (`Kind.Branches`).
-/

namespace SqlCaret

open SqlCaret.Tree

/-! ### The place of a node -/

/-- The points between which a row stands. -/
def Tree.Row.span (ix : LineIndex) (r : Row) : Span := ⟨ix.point r.start, ix.point r.stop⟩

/-- The kind of the statement that a node becomes. -/
def Tree.Site.statementKind (s : Site) : StatementKind :=
  match s.row.kind with
  | .block | .tryCatch => .block
  | .ifStatement => .conditional
  | .whileStatement => if s.inside.any Kind.isStatement then .loop else .simple
  | _ => .simple

/-- The statement is that of a node: of its kind, between its ends, and hanging where it does. -/
structure Placed.IsAt (ix : LineIndex) (p : Placed) (s : Site) : Prop where
  kind : p.statement.kind = s.statementKind
  span : p.statement.span = s.row.span ix
  parent : p.parent?.map (·.span) = (owner? s.around).map (Row.span ix)
  isElse : p.isElse = inElse s.around

/-- The nodes `around` are held by the statement `parent?`, and what stands in them is in reach. -/
structure Holder (ix : LineIndex) (around : List Row) (parent? : Option Statement)
    (isElse : Bool) : Prop where
  parent : parent?.map (·.span) = (owner? around).map (Row.span ix)
  isElse : isElse = inElse around
  kept : lost around = false

namespace Holder

variable {ix : LineIndex} {around : List Row} {parent? : Option Statement} {isElse : Bool}

theorem nil (ix : LineIndex) : Holder ix [] none false := ⟨rfl, rfl, rfl⟩

/-- A statement node holds what stands in it. -/
theorem statement (h : Holder ix around parent? isElse) {r : Row}
    (hr : r.kind.isStatement = true) {s : Statement} (hs : s.span = r.span ix) :
    Holder ix (r :: around) (some s) false where
  parent := by rw [owner?, List.find?_cons, hr]; exact congrArg some hs
  isElse := by rw [inElse, List.takeWhile_cons, hr]; rfl
  kept := by
    have hne : r.kind ≠ .error := by
      intro he
      rw [he] at hr
      cases hr
    rw [lost, h.kept, beq_eq_false_iff_ne.mpr hne]
    rfl

/-- Another node is held by what holds it. -/
theorem inside (h : Holder ix around parent? isElse) {r : Row} (hr : r.kind.isStatement = false)
    (hkept : (r.kind == .error && around.head?.any (·.kind.takesOne)) = false) :
    Holder ix (r :: around) parent? (r.kind == .elseClause || isElse) where
  parent := by rw [h.parent, owner?, owner?, List.find?_cons, hr]
  isElse := by rw [h.isElse, inElse, inElse, List.takeWhile_cons, hr]; rfl
  kept := by rw [lost, h.kept, hkept]; rfl

end Holder

/-- The placed statements are those of the sites that are in reach, one for each. -/
def Exactly (ix : LineIndex) (ps : List Placed) (ss : List Site) : Prop :=
  List.Forall₂ (Placed.IsAt ix) ps (ss.filter Site.isKept)

namespace Exactly

variable {ix : LineIndex} {p : Placed} {s : Site} {ps ps' : List Placed} {ss ss' : List Site}

theorem none (h : ∀ s ∈ ss, s.isKept = false) : Exactly ix [] ss := by
  rw [Exactly, List.filter_eq_nil_iff.mpr fun s hs => by rw [h s hs]; exact Bool.false_ne_true]
  exact .nil

theorem nil (ix : LineIndex) : Exactly ix [] [] := List.Forall₂.nil

theorem append (h : Exactly ix ps ss) (h' : Exactly ix ps' ss') :
    Exactly ix (ps ++ ps') (ss ++ ss') := by
  rw [Exactly, List.filter_append]
  exact List.rel_append h h'

theorem node (h : p.IsAt ix s) (hs : s.isKept = true) (hss : Exactly ix ps ss) :
    Exactly ix (p :: ps) (s :: ss) := by
  rw [Exactly, List.filter_cons, if_pos hs]
  exact .cons h hss

theorem skip (hs : s.isKept = false) (hss : Exactly ix ps ss) : Exactly ix ps (s :: ss) := by
  rw [Exactly, List.filter_cons, hs]
  exact hss

end Exactly

namespace Statement

variable (ix : LineIndex)

/-- The statement that a node is, and what is placed inside it. -/
theorem placed_ofTree (parent? : Option Statement) (isElse : Bool) (start : Nat) (k : Kind)
    (ts : List SyntaxTree) :
    placed parent? isElse (ofTree ix start (.node k ts)) =
      ⟨ofTree ix start (.node k ts), parent?, isElse⟩ ::
        match k with
        | .block | .tryCatch =>
          placedOfList (some (ofTree ix start (.node k ts))) (ofTrees ix start ts)
        | .ifStatement =>
          placedOfBranch (some (ofTree ix start (.node k ts))) false (first? ix start ts) ++
            placedOfBranch (some (ofTree ix start (.node k ts))) true (elseBranch? ix start ts)
        | .whileStatement =>
          placedOfBranch (some (ofTree ix start (.node k ts))) false (first? ix start ts)
        | _ => [] := by
  cases k with
  | whileStatement =>
      simp only [ofTree]
      cases first? ix start ts <;> simp only [placed, placedOfBranch]
  | _ => simp only [ofTree, placed]

theorem kind_ofTree (around : List Row) (start : Nat) (k : Kind) (ts : List SyntaxTree) :
    (ofTree ix start (.node k ts)).kind =
      Site.statementKind ⟨rowOf around start k ts, nodeKinds ts, around⟩ := by
  cases k with
  | whileStatement =>
      simp only [ofTree, Site.statementKind, rowOf_kind]
      rw [← isSome_first? ix start ts]
      cases first? ix start ts <;> rfl
  | _ => simp only [ofTree, Site.statementKind, rowOf_kind, kind]

/-- Where one statement is taken, nothing is kept of what is no statement and no `ELSE` clause. -/
theorem isKept_of_not_taken {around : List Row} {start : Nat} {k : Kind} {cs : List SyntaxTree}
    (haround : around.head?.any (·.kind.takesOne) = true) (hform : Formed (.node k cs))
    (hk : k = .error ∨ k = .condition) :
    ∀ s ∈ sites around start (.node k cs), s.isKept = false := by
  intro s hs
  rw [sites_node, List.mem_cons] at hs
  rcases hs with rfl | hs
  · rcases hk with rfl | rfl <;> rfl
  · rcases hk with rfl | rfl
    · refine isKept_of_lostOfList ?_ start cs s hs
      rw [lost, haround]
      rfl
    · -- no node stands in a condition
      rw [sitesOfList_eq_nil _ _ (List.isEmpty_iff.mp (formed_node.mp hform).1)] at hs
      cases hs

variable {ix}

mutual

theorem exactly_ofTree (around : List Row) (start : Nat) : ∀ t : SyntaxTree,
    t.kind?.any Kind.isStatement = true → Formed t →
      ∀ {parent? : Option Statement} {isElse : Bool}, Holder ix around parent? isElse →
        Exactly ix (placed parent? isElse (ofTree ix start t)) (sites around start t)
  | .leaf l, hk, _, _, _, _ => nomatch hk
  | .node k ts, hk, hform, parent?, isElse, h => by
      obtain ⟨hholds, -, hts⟩ := formed_node.mp hform
      have hk : k.isStatement = true := hk
      have hinner : Holder ix (rowOf around start k ts :: around)
          (some (ofTree ix start (.node k ts))) false := h.statement hk (span_ofTree ix start k ts)
      have hkept : Site.isKept ⟨rowOf around start k ts, nodeKinds ts, around⟩ = true := by
        rw [Site.isKept, h.kept, rowOf_kind, hk]
        rfl
      rw [placed_ofTree, sites_node]
      refine .node ⟨kind_ofTree ix around start k ts, span_ofTree ix start k ts, h.parent,
        h.isElse⟩ hkept ?_
      -- what holds many statements, what holds one in each branch, and what holds none
      cases k with
      | block => exact exactly_ofTrees _ start ts hts hholds hinner rfl
      | tryCatch => exact exactly_ofTrees _ start ts hts hholds hinner rfl
      | ifStatement =>
          exact exactly_branches _ start ts hts (Kind.branches_of_holds rfl hholds) hinner rfl
      | whileStatement =>
          have ih := exactly_branches _ start ts hts (Kind.branches_of_holds rfl hholds) hinner rfl
          rwa [elseBranch?_eq_none ix start (Kind.elseClause_notMem_of_holds (.inr rfl) hholds),
            placedOfBranch, List.append_nil] at ih
      | statement =>
          rw [sitesOfList_eq_nil _ _ (List.isEmpty_iff.mp hholds)]
          exact .nil ix
      | _ => cases hk

theorem exactly_ofTrees (around : List Row) (start : Nat) : ∀ ts : List SyntaxTree,
    FormedList ts → (nodeKinds ts).all Kind.isItem = true →
      ∀ {parent? : Option Statement}, Holder ix around parent? false →
        around.head?.any (·.kind.takesOne) = false →
          Exactly ix (placedOfList parent? (ofTrees ix start ts)) (sitesOfList around start ts)
  | [], _, _, parent?, _, _ => by
      rw [ofTrees, placedOfList, sitesOfList_nil]
      exact .nil ix
  | .leaf l :: ts, hform, hitems, parent?, h, haround => by
      have ih := exactly_ofTrees around (start + size (.leaf l)) ts
        ((formedList_cons _ _).mp hform).2 hitems h haround
      rw [ofTrees, sitesOfList_cons, sites_leaf]
      rwa [size_leaf] at ih
  | .node k cs :: ts, hform, hitems, parent?, h, haround => by
      obtain ⟨hnode, hrest⟩ := (formedList_cons _ _).mp hform
      rw [nodeKinds_node, List.all_cons, Bool.and_eq_true] at hitems
      have ih := exactly_ofTrees around (start + size (.node k cs)) ts hrest hitems.2 h haround
      rw [ofTrees, placedOfList_append, sitesOfList_cons]
      refine .append ?_ ih
      by_cases hk : k.isStatement = true
      · rw [if_pos hk, placedOfList, placedOfList, List.append_nil]
        exact exactly_ofTree around start (.node k cs) hk hnode h
      · -- the statements of an `ERROR` are held by what holds the `ERROR`
        obtain rfl := Kind.eq_error_of_isItem hitems.1 hk
        obtain ⟨hholds, -, hcs⟩ := formed_node.mp hnode
        rw [if_neg hk, if_pos rfl, sites_node]
        refine .skip rfl ?_
        exact exactly_ofTrees _ start cs hcs hholds (h.inside rfl (by rw [haround]; rfl)) rfl

theorem exactly_branches (around : List Row) (start : Nat) : ∀ ts : List SyntaxTree,
    FormedList ts → Kind.Branches (nodeKinds ts) →
      ∀ {parent? : Option Statement} {isElse : Bool}, Holder ix around parent? isElse →
        around.head?.any (·.kind.takesOne) = true →
          Exactly ix (placedOfBranch parent? isElse (first? ix start ts) ++
            placedOfBranch parent? true (elseBranch? ix start ts)) (sitesOfList around start ts)
  | [], _, _, parent?, isElse, _, _ => by
      rw [first?, elseBranch?, placedOfBranch, placedOfBranch, sitesOfList_nil]
      exact .nil ix
  | .leaf l :: ts, hform, hbranches, parent?, isElse, h, haround => by
      have ih := exactly_branches around (start + size (.leaf l)) ts
        ((formedList_cons _ _).mp hform).2 hbranches h haround
      rw [first?, elseBranch?, sitesOfList_cons, sites_leaf]
      rwa [size_leaf] at ih
  | .node k cs :: ts, hform, hbranches, parent?, isElse, h, haround => by
      obtain ⟨hnode, hrest⟩ := (formedList_cons _ _).mp hform
      rw [nodeKinds_node] at hbranches
      have ih := exactly_branches around (start + size (.node k cs)) ts hrest hbranches.tail h
        haround
      rw [size_node] at ih
      rw [first?, elseBranch?, sitesOfList_cons, size_node]
      by_cases hk : k.isStatement = true
      · -- no other statement follows
        rw [first?_eq_none ix _ (hbranches.alone hk), placedOfBranch, List.nil_append] at ih
        rw [if_pos hk, if_neg (by rintro rfl; cases hk), placedOfBranch]
        exact (exactly_ofTree around start (.node k cs) hk hnode h).append ih
      by_cases helse : k = .elseClause
      · subst helse
        obtain ⟨hholds, -, hcs⟩ := formed_node.mp hnode
        -- nothing stands behind the `ELSE` clause
        have hnil : nodeKinds ts = [] := hbranches.elseLast [] (nodeKinds ts) rfl
        have hclause := exactly_branches _ start cs hcs (Kind.branches_of_holds rfl hholds)
          (h.inside (r := rowOf around start .elseClause cs) rfl rfl) rfl
        rw [elseBranch?_eq_none ix start (Kind.elseClause_notMem_of_holds (.inl rfl) hholds),
          placedOfBranch, List.append_nil] at hclause
        rw [if_neg hk, if_pos rfl, first?_eq_none ix _ (by simp [hnil]),
          placedOfBranch, List.nil_append, sitesOfList_eq_nil _ _ hnil, List.append_nil, sites_node]
        exact .skip rfl hclause
      · have hother : k = .error ∨ k = .condition := by
          rcases hbranches.parts k List.mem_cons_self with hitem | hcondition | hclause
          · exact .inl (Kind.eq_error_of_isItem hitem hk)
          · exact .inr hcondition
          · exact absurd hclause helse
        rw [if_neg hk, if_neg helse]
        exact (Exactly.none (isKept_of_not_taken haround hnode hother)).append ih

end

/-- **The statements of all batches** are the statement nodes that are in reach. -/
theorem exactly_batchesOf {around : List Row} (h : Holder ix around none false) (start : Nat)
    {ts : List SyntaxTree} (hform : FormedList ts)
    (hkinds : ∀ k ∈ nodeKinds ts, k = .batch ∨ k = .separator) :
    Exactly ix (placedOfList none (Script.batchesOf ix start ts).flatten)
      (sitesOfList around start ts) := by
  induction ts generalizing start with
  | nil =>
      rw [Script.batchesOf, List.flatten_nil, placedOfList, sitesOfList_nil]
      exact .nil ix
  | cons t ts ih =>
      obtain ⟨ht, hrest⟩ := (formedList_cons _ _).mp hform
      cases t with
      | leaf l =>
          rw [sitesOfList_cons, sites_leaf]
          exact ih _ hrest hkinds
      | node k cs =>
          obtain ⟨hk, hkinds⟩ := List.forall_mem_cons.mp hkinds
          obtain ⟨hholds, -, hcs⟩ := formed_node.mp ht
          have ih := ih (start + size (.node k cs)) hrest hkinds
          rw [sitesOfList_cons, sites_node]
          rcases hk with rfl | rfl
          · have hbatch := exactly_ofTrees (rowOf around start .batch cs :: around) start cs hcs
              hholds (h.inside rfl rfl) rfl
            simp only [Script.batchesOf, List.flatten_cons, placedOfList_append]
            exact (Exactly.skip rfl hbatch).append ih
          · rw [sitesOfList_eq_nil _ _ (List.isEmpty_iff.mp hholds)]
            exact .skip rfl ih

end Statement

/-! ### The script of a text -/

/-- The sites of the nodes of a text. -/
def Parse.sites (text separator : List Char) : List Site :=
  Tree.sites [] 0 (Parse.ofText text separator).tree

theorem Parse.map_row_sites (text separator : List Char) :
    (Parse.sites text separator).map (·.row) =
      (Parse.rows text separator).filter (·.text.isNone) :=
  Tree.map_row_sites [] 0 _

theorem Parse.row_mem_rows {text separator : List Char} {s : Site}
    (hs : s ∈ Parse.sites text separator) :
    s.row ∈ Parse.rows text separator ∧ s.row.text = none := by
  have hmem := List.mem_map_of_mem (f := (·.row)) hs
  rw [map_row_sites, List.mem_filter, Option.isNone_iff_eq_none] at hmem
  exact hmem

namespace ParsedScript

theorem exactly (text separator : List Char) :
    Exactly (LineIndex.ofText text) (ofText text separator).script.placed
      (Parse.sites text separator) := by
  obtain ⟨ts, htree, -, -, hkinds, hform, -⟩ := Parse.exists_tree text separator
  have hroot := (Holder.nil (LineIndex.ofText text)).inside (r := rowOf [] 0 .script ts) rfl rfl
  have h := Statement.exactly_batchesOf hroot 0 hform (Kind.of_mem_alternate hkinds)
  rw [Parse.sites, htree, sites_node, Script.placed, topLevel_eq htree]
  exact .skip rfl h

/-- The sites that become statements start at one byte after the other. -/
theorem pairwise_kept (text separator : List Char) :
    ((Parse.sites text separator).filter Site.isKept).Pairwise
      fun s s' => s.row.start < s'.row.start := by
  obtain ⟨ts, htree, -, hleaves, hkinds, hform, -⟩ := Parse.exists_tree text separator
  have hroot : Formed (.node .script ts) := formed_node.mpr ⟨hkinds, .inl rfl, hform⟩
  have h := ordered_sites [] 0 (.node .script ts) hroot fun l hl =>
    text_ne_nil_of_mem_lexemes (hleaves ▸ leaves_node .script ts ▸ hl)
  have hsub : (Parse.sites text separator).filter Site.isKept =
      ((Parse.sites text separator).filter (·.row.kind.isStatement)).filter
        (!lost ·.around) := by
    rw [List.filter_filter]
    exact List.filter_congr fun s _ => Bool.and_comm _ _
  rw [hsub, Parse.sites, htree]
  exact h.pairwise.filter _

/-- No two statements of a script start at the same point, and they come in order. -/
theorem pairwise_walk (text separator : List Char) :
    (ofText text separator).script.walk.Pairwise fun s s' => s.span.start < s'.span.start := by
  have hspans : (ofText text separator).script.walk.map (·.span) =
      ((Parse.sites text separator).filter Site.isKept).map
        (·.row.span (LineIndex.ofText text)) := by
    rw [← Script.map_statement_placed, List.map_map, ← List.forall₂_eq_eq_eq,
      List.forall₂_map_left_iff, List.forall₂_map_right_iff]
    exact (exactly text separator).imp fun _ _ h => h.span
  have hboundary : ∀ s ∈ (Parse.sites text separator).filter Site.isKept,
      Utf8.IsBoundary text s.row.start := by
    intro s hs
    obtain ⟨hmem, hkept⟩ := List.mem_filter.mp hs
    obtain ⟨hrow, htext⟩ := Parse.row_mem_rows hmem
    rw [Site.isKept, Bool.and_eq_true] at hkept
    obtain ⟨-, -, inside, -, before, behind, heq, hstart, -⟩ :=
      exists_text_of_row hrow ⟨htext, hkept.1⟩
    exact ⟨before, inside ++ behind, heq, hstart⟩
  rw [← List.pairwise_map (f := Statement.span) (R := fun p p' => p.start < p'.start), hspans,
    List.pairwise_map]
  exact (pairwise_kept text separator).imp_of_mem fun {s s'} hs hs' hlt =>
    LineIndex.point_lt_point_of_lt (hboundary s hs) (hboundary s' hs') hlt

/-- **The statements of a script are the statement nodes of its syntax tree**, but for those in an
`ERROR` that stands where an `IF`, an `ELSE` or a `WHILE` takes its statement.  The walk meets each
of them once and in order, with its kind and its span; it hangs in the statement that is nearest
around it, and on an `ELSE` if the clause is between them. -/
theorem statements_are_nodes (text separator : List Char) :
    (Parse.sites text separator).map (·.row) =
        (Parse.rows text separator).filter (·.text.isNone) ∧
      (∀ s ∈ Parse.sites text separator,
        s.row.depth = s.around.length ∧ (s.row :: s.around).IsChain Row.StandsIn ∧
          s.around ⊆ Parse.rows text separator) ∧
      (ofText text separator).script.placed.map (·.statement) =
        (ofText text separator).script.walk ∧
      List.Forall₂ (Placed.IsAt (LineIndex.ofText text))
        (ofText text separator).script.placed
        ((Parse.sites text separator).filter Site.isKept) ∧
      (ofText text separator).script.walk.Pairwise fun s s' => s.span.start < s'.span.start := by
  refine ⟨Parse.map_row_sites text separator, fun s hs => ?_, Script.map_statement_placed _,
    exactly text separator, pairwise_walk text separator⟩
  obtain ⟨hdepth, hchain, hsub⟩ := around_of_mem_sites _ (.nil _ _) s hs
  refine ⟨hdepth, hchain, fun r hr => ?_⟩
  rw [List.append_nil] at hsub
  obtain ⟨s', hs', rfl⟩ := List.mem_map.mp (hsub hr)
  exact (Parse.row_mem_rows hs').1

end ParsedScript

end SqlCaret
