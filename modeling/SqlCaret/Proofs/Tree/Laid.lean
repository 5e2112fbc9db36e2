import SqlCaret.Proofs.Tree.Form
import SqlCaret.Syntax.Tree.OfEvents

/-!
# Trees — laid

What the building of a syntax tree comes to when events may give a token any kind.  A `Leaf`
remembers the lexeme it shows and whether an event named it or it was put back as white space or a
comment.  `Lays kindOf os ls ts rest` says that the trees `os` laid over the lexemes `ls` are the
trees `ts`, with the lexemes `rest` left over.

The machine does just that (`Lays.run`, `Lays.ofEvents?_eq`), and it can wherever there are as many
significant lexemes as leaves (`exists_lays`).  The leaves are the lexemes in order
(`Lays.sources_eq`), the events come back when what was put back is passed over (`Lays.told_eq`),
and a node that has leaves begins with one that was named, and ends with one if no node in it is
empty (`Lays.edges`).
-/

namespace SqlCaret

open SqlCaret.Tree

/-- Not beginning with white space or a comment. -/
def SignificantFirst (ls : List Lexeme) : Prop := ∀ l ∈ ls.head?, l.kind.isTrivia = false

/-- A leaf of a syntax tree and how it came there. -/
inductive Leaf where
  /-- White space or a comment that was put back. -/
  | blank (l : Lexeme)
  /-- A lexeme that an event gave a kind. -/
  | named (kind : Kind) (l : Lexeme)
deriving Repr, DecidableEq

namespace Leaf

/-- The lexeme of the text. -/
def source : Leaf → Lexeme
  | blank l => l
  | named _ l => l

/-- The lexeme in the tree. -/
def shown : Leaf → Lexeme
  | blank l => l
  | named k l => ⟨k, l.text⟩

/-- The kind that an event gave. -/
def given? : Leaf → Option Kind
  | blank _ => none
  | named k _ => some k

end Leaf

namespace Tree

variable {α : Type}

mutual

/-- The syntax tree that shows. -/
def shown : Tree Leaf → SyntaxTree
  | leaf x => leaf x.shown
  | node k ts => node k (shownOfList ts)

/-- The syntax trees that show. -/
def shownOfList : List (Tree Leaf) → List SyntaxTree
  | [] => []
  | t :: ts => shown t :: shownOfList ts

end

mutual

/-- The events that tell a tree, what was put back passed over. -/
def told : Tree Leaf → List Event
  | leaf (.blank _) => []
  | leaf (.named k _) => [.token k]
  | node k ts => .start k :: (toldOfList ts ++ [.finish])

/-- The events that tell trees one after the other. -/
def toldOfList : List (Tree Leaf) → List Event
  | [] => []
  | t :: ts => told t ++ toldOfList ts

end

mutual

/-- The nodes of a tree, a node before those in it. -/
def nodes : Tree α → List (Tree α)
  | leaf _ => []
  | node k ts => node k ts :: nodesOfList ts

/-- The nodes of trees, one tree after the other. -/
def nodesOfList : List (Tree α) → List (Tree α)
  | [] => []
  | t :: ts => nodes t ++ nodesOfList ts

end

@[simp] theorem shown_leaf (x : Leaf) : shown (leaf x) = leaf x.shown := by rw [shown]

@[simp] theorem shown_node (k : Kind) (ts : List (Tree Leaf)) :
    shown (node k ts) = node k (shownOfList ts) := by rw [shown]

@[simp] theorem shownOfList_nil : shownOfList [] = [] := by rw [shownOfList]

@[simp] theorem shownOfList_cons (t : Tree Leaf) (ts : List (Tree Leaf)) :
    shownOfList (t :: ts) = shown t :: shownOfList ts := by rw [shownOfList]

@[simp] theorem shownOfList_append (ts us : List (Tree Leaf)) :
    shownOfList (ts ++ us) = shownOfList ts ++ shownOfList us := by
  induction ts with
  | nil => simp
  | cons t ts ih => simp [ih]

@[simp] theorem told_blank (l : Lexeme) : told (leaf (.blank l)) = [] := by rw [told]

@[simp] theorem told_named (k : Kind) (l : Lexeme) :
    told (leaf (.named k l)) = [.token k] := by rw [told]

@[simp] theorem told_node (k : Kind) (ts : List (Tree Leaf)) :
    told (node k ts) = .start k :: (toldOfList ts ++ [.finish]) := by rw [told]

@[simp] theorem toldOfList_nil : toldOfList [] = [] := by rw [toldOfList]

@[simp] theorem toldOfList_cons (t : Tree Leaf) (ts : List (Tree Leaf)) :
    toldOfList (t :: ts) = told t ++ toldOfList ts := by rw [toldOfList]

@[simp] theorem toldOfList_append (ts us : List (Tree Leaf)) :
    toldOfList (ts ++ us) = toldOfList ts ++ toldOfList us := by
  induction ts with
  | nil => simp
  | cons t ts ih => simp [ih]

@[simp] theorem nodes_leaf (a : α) : nodes (leaf a) = [] := by rw [nodes]

@[simp] theorem nodes_node (k : Kind) (ts : List (Tree α)) :
    nodes (node k ts) = node k ts :: nodesOfList ts := by rw [nodes]

@[simp] theorem nodesOfList_nil : nodesOfList ([] : List (Tree α)) = [] := by rw [nodesOfList]

@[simp] theorem nodesOfList_cons (t : Tree α) (ts : List (Tree α)) :
    nodesOfList (t :: ts) = nodes t ++ nodesOfList ts := by rw [nodesOfList]

@[simp] theorem nodesOfList_append (ts us : List (Tree α)) :
    nodesOfList (ts ++ us) = nodesOfList ts ++ nodesOfList us := by
  induction ts with
  | nil => simp
  | cons t ts ih => simp [ih]

/-- White space and comments as leaves that were put back. -/
def blanks (ls : List Lexeme) : List (Tree Leaf) := ls.map fun l => leaf (.blank l)

section
variable (ls : List Lexeme)

@[simp] theorem shownOfList_blanks : shownOfList (blanks ls) = ls.map .leaf := by
  induction ls with
  | nil => rfl
  | cons l ls ih => simpa [blanks, Leaf.shown] using ih

@[simp] theorem toldOfList_blanks : toldOfList (blanks ls) = [] := by
  induction ls with
  | nil => rfl
  | cons l ls ih => simpa [blanks] using ih

@[simp] theorem leavesOfList_blanks : leavesOfList (blanks ls) = ls.map .blank := by
  induction ls with
  | nil => rfl
  | cons l ls ih => simpa [blanks] using ih

@[simp] theorem nodesOfList_blanks : nodesOfList (blanks ls) = [] := by
  induction ls with
  | nil => rfl
  | cons l ls ih => simpa [blanks] using ih

end

end Tree

variable {α : Type} {kindOf : α → Kind}

/-- The trees `os` laid over the lexemes `ls` are `ts`, and `rest` is left. -/
inductive Lays (kindOf : α → Kind) :
    List (Tree α) → List Lexeme → List (Tree Leaf) → List Lexeme → Prop where
  | nil (ls : List Lexeme) : Lays kindOf [] ls [] ls
  | trivia {os : List (Tree α)} {l : Lexeme} {ls rest : List Lexeme} {ts : List (Tree Leaf)}
      (h : l.kind.isTrivia = true) (hos : os ≠ []) (w : Lays kindOf os ls ts rest) :
      Lays kindOf os (l :: ls) (.leaf (.blank l) :: ts) rest
  | leaf {os : List (Tree α)} {a : α} {l : Lexeme} {ls rest : List Lexeme}
      {ts : List (Tree Leaf)} (h : l.kind.isTrivia = false) (w : Lays kindOf os ls ts rest) :
      Lays kindOf (.leaf a :: os) (l :: ls) (.leaf (.named (kindOf a) l) :: ts) rest
  | node {k : Kind} {os os' : List (Tree α)} {ls ls₁ rest : List Lexeme}
      {us ts : List (Tree Leaf)} (h : SignificantFirst ls) (inner : Lays kindOf os ls us ls₁)
      (w : Lays kindOf os' ls₁ ts rest) :
      Lays kindOf (.node k os :: os') ls (.node k us :: ts) rest

/-- Behind white space and comments comes something else. -/
theorem significantFirst_dropWhile (ls : List Lexeme) :
    SignificantFirst (ls.dropWhile (·.kind.isTrivia)) := by
  intro l hl
  have h := List.head?_dropWhile_not (·.kind.isTrivia) ls
  rw [Option.mem_def.mp hl] at h
  simpa using h

/-! ### The machine -/

namespace Weaving

variable {l : Lexeme} {ls rest : List Lexeme} {n : OpenNode} {ns : List OpenNode}
  {root : Option SyntaxTree}

/-- Lexemes that are put back one by one go to the node that is open, the latest first. -/
theorem foldl_add (ws : List Lexeme) (n : OpenNode) :
    ws.foldl (fun (w : Weaving) l => w.add (.leaf l)) ⟨ls, n :: ns, root⟩ =
      ⟨ls, ⟨n.kind, (ws.map Tree.leaf).reverse ++ n.children⟩ :: ns, root⟩ := by
  induction ws generalizing n with
  | nil => rfl
  | cons l ws ih =>
      rw [List.foldl_cons, add, ih]
      simp

/-- White space ahead goes to the node that is open. -/
theorem addTrivia_eq :
    addTrivia ⟨ls, n :: ns, root⟩ =
      ⟨ls.dropWhile (·.kind.isTrivia),
        ⟨n.kind, ((ls.takeWhile (·.kind.isTrivia)).map Tree.leaf).reverse ++ n.children⟩ :: ns,
        root⟩ := foldl_add _ n

/-- In front of a significant lexeme nothing is put back. -/
theorem addTrivia_of_significantFirst (h : SignificantFirst ls) :
    addTrivia ⟨ls, n :: ns, root⟩ = ⟨ls, n :: ns, root⟩ := by
  cases ls with
  | nil => simp [addTrivia_eq]
  | cons l ls => simp [addTrivia_eq, h l rfl]

/-- White space and comments ahead go to the node that is open, one at a time. -/
theorem addTrivia_cons (h : l.kind.isTrivia = true) :
    addTrivia ⟨l :: ls, n :: ns, root⟩ =
      addTrivia ⟨ls, ⟨n.kind, .leaf l :: n.children⟩ :: ns, root⟩ := by
  simp [addTrivia_eq, h]

/-- A blank may be put into the open node before a tree is begun: the tree would do the same. -/
theorem run_trivia {os : List (Tree α)} (h : l.kind.isTrivia = true) (hos : os ≠ [])
    (es : List Event) :
    run ⟨l :: ls, n :: ns, root⟩ (eventsOfList kindOf os ++ es) =
      run ⟨ls, ⟨n.kind, .leaf l :: n.children⟩ :: ns, root⟩ (eventsOfList kindOf os ++ es) := by
  obtain ⟨o, os, rfl⟩ := List.exists_cons_of_ne_nil hos
  cases o with
  | leaf a => simp [eventsOfList, events, run, step, addTrivia_cons h]
  | node k us => simp [eventsOfList, events, run, step, addTrivia_cons h]

end Weaving

namespace Lays

variable {os os' : List (Tree α)} {ls ls' rest : List Lexeme} {ts ts' : List (Tree Leaf)}

theorem append (h : Lays kindOf os ls ts ls') (h' : Lays kindOf os' ls' ts' rest) :
    Lays kindOf (os ++ os') ls (ts ++ ts') rest := by
  induction h with
  | nil ls => exact h'
  | trivia ht hos _ ih => exact .trivia ht (by simp [hos]) (ih h')
  | leaf ht _ ih => exact .leaf ht (ih h')
  | node hs inner _ _ ih => exact .node hs inner (ih h')

/-- White space and comments in front of a tree. -/
theorem trivias (h : Lays kindOf os ls ts rest) (hos : os ≠ []) {ws : List Lexeme}
    (hws : ∀ l ∈ ws, l.kind.isTrivia = true) :
    Lays kindOf os (ws ++ ls) (blanks ws ++ ts) rest := by
  induction ws with
  | nil => exact h
  | cons l ws ih =>
      exact .trivia (hws l List.mem_cons_self) hos
        (ih fun l' h' => hws l' (List.mem_cons_of_mem _ h'))

/-- **The machine lays.** -/
theorem run (h : Lays kindOf os ls ts rest) (n : OpenNode) (ns : List OpenNode)
    (root : Option SyntaxTree) (es : List Event) :
    Weaving.run ⟨ls, n :: ns, root⟩ (eventsOfList kindOf os ++ es) =
      Weaving.run ⟨rest, ⟨n.kind, (shownOfList ts).reverse ++ n.children⟩ :: ns, root⟩ es := by
  induction h generalizing n ns es with
  | nil ls => simp [eventsOfList]
  | trivia ht hos _ ih =>
      rw [Weaving.run_trivia ht hos, ih]
      simp [Leaf.shown]
  | @leaf os a l ls _ ts ht _ ih =>
      have hfirst : SignificantFirst (l :: ls) := by
        intro l' hl'
        cases hl'
        exact ht
      simp only [eventsOfList, events, List.cons_append, List.nil_append, Weaving.run,
        Weaving.step, Weaving.addTrivia_of_significantFirst hfirst, Option.bind_some,
        Weaving.add]
      rw [ih]
      simp [Leaf.shown]
  | node hs _ _ ih₁ ih₂ =>
      simp only [eventsOfList, events, List.cons_append, List.append_assoc, Weaving.run,
        Weaving.step, Weaving.addTrivia_of_significantFirst hs, Option.bind_some]
      rw [ih₁]
      simp only [List.nil_append, Weaving.run, Weaving.step, Weaving.add, List.append_nil,
        List.reverse_reverse, Option.bind_some]
      rw [ih₂]
      simp

/-- **The events of a node make the tree that is laid**, with the white space behind it in its
root. -/
theorem ofEvents?_eq (h : Lays kindOf os ls ts rest) (k : Kind) :
    Tree.ofEvents? ls (events kindOf (.node k os)) =
      some (Tree.shown (.node k (ts ++ blanks (rest.takeWhile (·.kind.isTrivia))))) := by
  rw [events, Tree.ofEvents?]
  simp only [Weaving.run, Weaving.step, Option.bind_some]
  rw [h.run]
  simp [Weaving.run, Weaving.step, Weaving.addTrivia_eq]

/-! ### What is kept -/

/-- **The leaves show the lexemes in order**, each once. -/
theorem sources_eq (h : Lays kindOf os ls ts rest) :
    (leavesOfList ts).map Leaf.source ++ rest = ls := by
  induction h with
  | nil ls => simp
  | trivia _ _ _ ih => simp [ih, Leaf.source]
  | leaf _ _ ih => simp [ih, Leaf.source]
  | node _ _ _ ih₁ ih₂ => rw [← ih₁, ← ih₂]; simp

/-- **The events come back** when what was put back is passed over. -/
theorem told_eq (h : Lays kindOf os ls ts rest) : toldOfList ts = eventsOfList kindOf os := by
  induction h with
  | nil ls => simp [eventsOfList]
  | trivia _ _ _ ih => simp [ih]
  | leaf _ _ ih => simp [ih, eventsOfList, events]
  | node _ _ _ ih₁ ih₂ => simp [ih₁, ih₂, eventsOfList, events]

/-- A leaf is named just where its lexeme is significant. -/
theorem isSome_given? (h : Lays kindOf os ls ts rest) :
    ∀ x ∈ leavesOfList ts, x.given?.isSome = !x.source.kind.isTrivia := by
  induction h with
  | nil ls => simp
  | trivia ht _ _ ih =>
      rw [leavesOfList_cons, leaves_leaf, List.singleton_append, List.forall_mem_cons]
      exact ⟨by simp [Leaf.given?, Leaf.source, ht], ih⟩
  | leaf ht _ ih =>
      rw [leavesOfList_cons, leaves_leaf, List.singleton_append, List.forall_mem_cons]
      exact ⟨by simp [Leaf.given?, Leaf.source, ht], ih⟩
  | node _ _ _ ih₁ ih₂ =>
      rw [leavesOfList_cons, leaves_node, List.forall_mem_append]
      exact ⟨ih₁, ih₂⟩

/-- No trees become no trees, and only these do. -/
theorem eq_nil_iff (h : Lays kindOf os ls ts rest) : ts = [] ↔ os = [] := by
  cases h with
  | nil => simp
  | trivia _ hos => simp [hos]
  | leaf => simp
  | node => simp

end Lays

/-! ### The edges of a node -/

namespace Leaf

/-- Beginning with a leaf that an event named. -/
def NamedFirst (xs : List Leaf) : Prop := ∃ x ∈ xs.head?, x.given?.isSome = true

/-- Ending with a leaf that an event named. -/
def NamedLast (xs : List Leaf) : Prop := ∃ x ∈ xs.getLast?, x.given?.isSome = true

theorem NamedLast.append {ys : List Leaf} (h : NamedLast ys) (xs : List Leaf) :
    NamedLast (xs ++ ys) := by
  obtain ⟨x, hx, hnamed⟩ := h
  refine ⟨x, ?_, hnamed⟩
  rw [List.getLast?_append, Option.mem_def.mp hx]
  rfl

end Leaf

namespace Lays

open Leaf (NamedFirst NamedLast)

variable {os : List (Tree α)} {ls rest : List Lexeme} {ts : List (Tree Leaf)}

/-- What is laid over lexemes that begin with a significant one begins with it. -/
theorem namedFirst (h : Lays kindOf os ls ts rest) (hls : SignificantFirst ls)
    (hne : leavesOfList ts ≠ []) : NamedFirst (leavesOfList ts) := by
  have hsources := h.sources_eq
  have hnamed := h.isSome_given?
  obtain ⟨x, xs, hxs⟩ := List.exists_cons_of_ne_nil hne
  rw [hxs] at hsources hnamed ⊢
  have hx := hls x.source (by rw [← hsources]; rfl)
  exact ⟨x, rfl, by rw [hnamed x List.mem_cons_self, hx]; rfl⟩

/-- Where no node is empty the last leaf is named. -/
theorem namedLast (h : Lays kindOf os ls ts rest) (hne : os ≠ [])
    (hfull : ∀ u ∈ nodesOfList ts, leaves u ≠ []) : NamedLast (leavesOfList ts) := by
  induction h with
  | nil ls => exact absurd rfl hne
  | trivia _ _ _ ih =>
      -- something stands behind white space, and it is what comes last
      rw [leavesOfList_cons]
      exact (ih hne (by simpa using hfull)).append _
  | @leaf os a l ls rest ts hl w ih =>
      rw [leavesOfList_cons]
      by_cases hos : os = []
      · rw [w.eq_nil_iff.mpr hos]
        exact ⟨.named (kindOf a) l, rfl, rfl⟩
      · exact (ih hos (by simpa using hfull)).append _
  | @node k os os' ls ls₁ rest us ts _ inner w ih₁ ih₂ =>
      rw [nodesOfList_cons, nodes_node, List.cons_append, List.forall_mem_cons,
        List.forall_mem_append] at hfull
      obtain ⟨hnode, hinner, hbehind⟩ := hfull
      rw [leavesOfList_cons, leaves_node]
      by_cases hos : os' = []
      · rw [w.eq_nil_iff.mpr hos, leavesOfList_nil, List.append_nil]
        refine ih₁ (fun hnil => hnode ?_) hinner
        rw [inner.eq_nil_iff.mpr hnil]
        simp
      · exact (ih₂ hos hbehind).append _

/-- **The edges of a node.**  A node that has leaves begins with a named one, and ends with one if
no node in it is empty. -/
theorem edges (h : Lays kindOf os ls ts rest) :
    ∀ u ∈ nodesOfList ts, leaves u ≠ [] → NamedFirst (leaves u) ∧
      ((∀ v ∈ nodesOfList u.children, leaves v ≠ []) → NamedLast (leaves u)) := by
  induction h with
  | nil ls => simp
  | trivia _ _ _ ih => simpa using ih
  | leaf _ _ ih => simpa using ih
  | @node k os os' ls ls₁ rest us ts hs inner w ih₁ ih₂ =>
      rw [nodesOfList_cons, nodes_node, List.cons_append, List.forall_mem_cons,
        List.forall_mem_append]
      refine ⟨fun hne => ?_, ih₁, ih₂⟩
      rw [leaves_node] at hne ⊢
      refine ⟨inner.namedFirst hs hne, fun hfull => inner.namedLast (fun hnil => hne ?_) hfull⟩
      rw [inner.eq_nil_iff.mpr hnil, leavesOfList_nil]

end Lays

/-! ### Where there is a tree to lay -/

/-- Lexemes are white space and comments, and then something else. -/
theorem exists_trivia_append (ls : List Lexeme) :
    ∃ ws ls', ls = ws ++ ls' ∧ (∀ l ∈ ws, l.kind.isTrivia = true) ∧ SignificantFirst ls' :=
  ⟨ls.takeWhile (·.kind.isTrivia), ls.dropWhile (·.kind.isTrivia),
    List.takeWhile_append_dropWhile.symm, List.all_eq_true.mp List.all_takeWhile,
    significantFirst_dropWhile ls⟩

/-- The kinds of the significant lexemes. -/
def significantKinds (ls : List Lexeme) : List Kind :=
  (ls.filter (!·.kind.isTrivia)).map (·.kind)

/-- White space and comments in front count for nothing. -/
theorem significantKinds_trivia_append {ws : List Lexeme}
    (hws : ∀ l ∈ ws, l.kind.isTrivia = true) (ls : List Lexeme) :
    significantKinds (ws ++ ls) = significantKinds ls := by
  have hnil : ws.filter (!·.kind.isTrivia) = [] := by simpa using hws
  rw [significantKinds, List.filter_append, hnil, List.nil_append, significantKinds]

mutual

/-- A tree can be laid over lexemes with enough significant ones. -/
theorem exists_lays_tree : ∀ (o : Tree α) (ls : List Lexeme) (n : Nat),
    (leaves o).length + n ≤ (significantKinds ls).length →
      ∃ ts rest, Lays kindOf [o] ls ts rest ∧ n ≤ (significantKinds rest).length
  | .leaf a, ls, n, h => by
      obtain ⟨ws, ls', rfl, hws, hfirst⟩ := exists_trivia_append ls
      rw [significantKinds_trivia_append hws, leaves_leaf] at h
      cases ls' with
      | nil => simp [significantKinds] at h
      | cons l ls' =>
          have hl : l.kind.isTrivia = false := hfirst l rfl
          simp only [significantKinds, List.filter_cons, hl, Bool.not_false, if_true,
            List.map_cons, List.length_cons, List.length_nil] at h
          exact ⟨_, ls', (Lays.leaf hl (.nil ls')).trivias (by simp) hws,
            by rw [significantKinds]; omega⟩
  | .node k os, ls, n, h => by
      obtain ⟨ws, ls', rfl, hws, hfirst⟩ := exists_trivia_append ls
      rw [significantKinds_trivia_append hws, leaves_node] at h
      obtain ⟨us, rest, hos, hrest⟩ := exists_lays os ls' n h
      exact ⟨_, rest, (Lays.node hfirst hos (.nil rest)).trivias (by simp) hws, hrest⟩

/-- **Trees can be laid wherever there are enough significant lexemes for their leaves**, and those
that are too many are left over. -/
theorem exists_lays : ∀ (os : List (Tree α)) (ls : List Lexeme) (n : Nat),
    (leavesOfList os).length + n ≤ (significantKinds ls).length →
      ∃ ts rest, Lays kindOf os ls ts rest ∧ n ≤ (significantKinds rest).length
  | [], ls, n, h => ⟨[], ls, .nil ls, by simpa using h⟩
  | o :: os, ls, n, h => by
      rw [leavesOfList_cons, List.length_append, Nat.add_assoc] at h
      obtain ⟨us, ls₁, ho, h₁⟩ := exists_lays_tree o ls _ h
      obtain ⟨ts, rest, hos, h₂⟩ := exists_lays os ls₁ n h₁
      exact ⟨us ++ ts, rest, ho.append hos, h₂⟩

end

end SqlCaret
