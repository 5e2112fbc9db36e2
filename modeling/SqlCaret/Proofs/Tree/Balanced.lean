import SqlCaret.Proofs.Tree.Laid
import SqlCaret.Proofs.Tree.Recorded
import SqlCaret.Syntax.Token.Scan

/-!
# Trees — from balanced events

The syntax tree of any events that begin one node and end it with all that is in it.  Placeholders
do nothing (`Weaving.run_proper`), and without them the events tell just one tree
(`Event.exists_tree`), so there is something to lay over the lexemes (`Tree.exists_ofEvents?`).

`Tree.ofEvents?_of_oneRoot` says what comes of it when there are enough significant lexemes: the
leaves, the nodes and the edges of the nodes.
-/

namespace SqlCaret

open SqlCaret.Tree

namespace Event

/-- The events but the placeholders. -/
def proper (es : List Event) : List Event := es.filter (· != .placeholder)

theorem proper_append (es fs : List Event) : proper (es ++ fs) = proper es ++ proper fs :=
  List.filter_append ..

theorem tokens_proper (es : List Event) : tokens (proper es) = tokens es := by
  induction es with
  | nil => rfl
  | cons e es ih =>
      simp only [tokens, proper] at ih
      cases e <;> simp [tokens, proper, ih]

/-- Events that end nodes tell the rest of the innermost one, end it, and then end the others. -/
theorem exists_trees (es : List Event) (n : Nat) (h : ends (n + 1) es = true) :
    ∃ (os : List (Tree Kind)) (rest : List Event),
      es = eventsOfList id os ++ .finish :: rest ∧ ends n rest = true := by
  -- a node that begins takes events of its own first, so the list need not get one shorter
  induction hlength : es.length using Nat.strongRecOn generalizing es n with
  | ind length ih =>
      subst hlength
      match es, h with
      | .finish :: es, h => exact ⟨[], es, by simp [eventsOfList], by rwa [ends] at h⟩
      | .token k :: es, h =>
          rw [ends] at h
          obtain ⟨os, rest, rfl, hrest⟩ := ih _ (by simp) es n h rfl
          exact ⟨.leaf k :: os, rest, by simp [eventsOfList, events], hrest⟩
      | .start k :: es, h =>
          rw [ends] at h
          obtain ⟨us, rest₁, rfl, h₁⟩ := ih _ (by simp) es (n + 1) h rfl
          obtain ⟨os, rest, rfl, hrest⟩ := ih _ (by simp; omega) rest₁ n h₁ rfl
          exact ⟨.node k us :: os, rest, by simp [eventsOfList, events], hrest⟩
      | .placeholder :: es, h => simp [ends] at h
      | [], h => simp [ends] at h

/-- **Balanced events tell a tree.** -/
theorem exists_tree {es : List Event} (h : oneRoot es = true) :
    ∃ (k : Kind) (os : List (Tree Kind)), es = events id (.node k os) := by
  match es, h with
  | .start k :: es, h =>
      rw [oneRoot] at h
      obtain ⟨os, rest, rfl, hrest⟩ := exists_trees es 0 h
      rw [ends, List.isEmpty_iff] at hrest
      subst hrest
      exact ⟨k, os, by rw [events]⟩

end Event

/-- A placeholder does nothing. -/
theorem Weaving.run_proper (w : Weaving) (es : List Event) :
    w.run (Event.proper es) = w.run es := by
  induction es generalizing w with
  | nil => rfl
  | cons e es ih =>
      by_cases he : e = .placeholder
      · subst he
        exact ih w
      · rw [Event.proper, List.filter_cons_of_pos (by simpa using he), Weaving.run, Weaving.run]
        exact congrArg _ (funext ih)

namespace Tree

/-- The tree has no use for placeholders. -/
theorem ofEvents?_proper (ls : List Lexeme) (es : List Event) :
    ofEvents? ls (Event.proper es) = ofEvents? ls es := by
  rw [ofEvents?, ofEvents?, Weaving.run_proper]

/-- Balanced events make a tree if there is a lexeme for each of their tokens. -/
theorem exists_ofEvents? {ls : List Lexeme} {es : List Event}
    (hroot : Event.oneRoot (Event.proper es) = true)
    (hcount : (Event.tokens es).length ≤ (significantKinds ls).length) :
    ∃ t, ofEvents? ls es = some t := by
  obtain ⟨k, os, hes⟩ := Event.exists_tree hroot
  rw [← Event.tokens_proper, hes, tokens_events, List.length_map, leaves_node] at hcount
  obtain ⟨ts, rest, hlays, -⟩ : ∃ ts rest, Lays id os ls ts rest ∧ 0 ≤ _ :=
    exists_lays os ls 0 hcount
  rw [← ofEvents?_proper, hes]
  exact ⟨_, hlays.ofEvents?_eq k⟩

mutual

/-- The tokens that are told are the leaves that events named. -/
theorem tokens_told : ∀ t : Tree Leaf,
    Event.tokens (told t) = (leaves t).filterMap Leaf.given?
  | leaf (.blank l) => by simp [Event.tokens, Leaf.given?]
  | leaf (.named k l) => by simp [Event.tokens, Leaf.given?]
  | node k ts => by
      have ih := tokens_toldOfList ts
      simp only [Event.tokens] at ih
      simp [Event.tokens, ih]

theorem tokens_toldOfList : ∀ ts : List (Tree Leaf),
    Event.tokens (toldOfList ts) = (leavesOfList ts).filterMap Leaf.given?
  | [] => by simp [Event.tokens]
  | t :: ts => by
      have iht := tokens_told t
      have ih := tokens_toldOfList ts
      simp only [Event.tokens] at iht ih
      simp [Event.tokens, iht, ih]

end

end Tree

/-- **The tree of balanced events.**  Events that begin and end one root, with placeholders
anywhere and no more tokens than there are significant lexemes, make a tree.  Its leaves are the
lexemes up to the next significant one that no event names: the significant ones have the kinds
that the events give them, the others their own.  Without what was put back the tree is told by
the events.  A node inside of the root that has leaves begins with one that an event named, and
ends with one if no node in it is empty. -/
theorem Tree.ofEvents?_of_oneRoot (text : List Char) {es : List Event}
    (hroot : Event.oneRoot (Event.proper es) = true)
    (hcount : (Event.tokens es).length ≤ (significantKinds (lexemes text)).length) :
    ∃ k ts rest, Tree.ofEvents? (lexemes text) es = some (shown (.node k ts)) ∧
      told (.node k ts) = Event.proper es ∧
      lexemes text = (leavesOfList ts).map Leaf.source ++ rest ∧ SignificantFirst rest ∧
      (∀ x ∈ leavesOfList ts, x.given?.isSome = !x.source.kind.isTrivia) ∧
      (leavesOfList ts).filterMap Leaf.given? = Event.tokens es ∧
      ∀ u ∈ nodesOfList ts, leaves u ≠ [] → Leaf.NamedFirst (leaves u) ∧
        ((∀ v ∈ nodesOfList u.children, leaves v ≠ []) → Leaf.NamedLast (leaves u)) := by
  obtain ⟨k, os, hes⟩ := Event.exists_tree hroot
  rw [← Event.tokens_proper, hes, tokens_events, List.length_map, leaves_node] at hcount
  obtain ⟨ts, rest, hlays, -⟩ := exists_lays os (lexemes text) 0 hcount
  have htold : told (.node k (ts ++ blanks (rest.takeWhile (·.kind.isTrivia)))) =
      Event.proper es := by
    rw [told_node, toldOfList_append, toldOfList_blanks, List.append_nil, hlays.told_eq, hes,
      events]
  -- white space and comments behind the last token go to the root
  refine ⟨k, ts ++ blanks (rest.takeWhile (·.kind.isTrivia)), rest.dropWhile (·.kind.isTrivia),
    ?_, htold, ?_, significantFirst_dropWhile rest, ?_, ?_, ?_⟩
  · rw [Tree.ofEvents?, ← Weaving.run_proper, hes]
    exact hlays.ofEvents?_eq k
  · rw [leavesOfList_append, leavesOfList_blanks, List.map_append, List.map_map, List.append_assoc]
    have hblanks : Leaf.source ∘ Leaf.blank = id := rfl
    rw [hblanks, List.map_id, List.takeWhile_append_dropWhile, hlays.sources_eq]
  · rw [leavesOfList_append, leavesOfList_blanks, List.forall_mem_append]
    refine ⟨hlays.isSome_given?, fun x hx => ?_⟩
    obtain ⟨l, hl, rfl⟩ := List.mem_map.mp hx
    have htrivia : l.kind.isTrivia = true := List.all_eq_true.mp List.all_takeWhile l hl
    simp [Leaf.given?, Leaf.source, htrivia]
  · rw [← Event.tokens_proper, ← htold, tokens_told, leaves_node]
  · rw [nodesOfList_append, nodesOfList_blanks, List.append_nil]
    exact hlays.edges

/-- The space goes in front of a node with nothing in it, and the comment to the root. -/
theorem Tree.ofEvents?_of_oneRoot_emptyNode :
    let text := "a b--c\nd".toList
    let es : List Event := [.placeholder, .start .script, .start .batch, .token .word,
      .start .block, .finish, .placeholder, .token .word, .finish, .finish]
    Event.oneRoot (Event.proper es) = true ∧
      (Event.tokens es).length ≤ (significantKinds (lexemes text)).length ∧
      ∃ ts rest, Tree.ofEvents? (lexemes text) es = some (shown (.node .script ts)) ∧
        told (.node .script ts) = Event.proper es ∧
        lexemes text = (leavesOfList ts).map Leaf.source ++ rest ∧ SignificantFirst rest := by
  intro text es
  have hroot : Event.oneRoot (Event.proper es) = true := by decide
  have hcount : (Event.tokens es).length ≤ (significantKinds (lexemes text)).length := by decide
  obtain ⟨k, ts, rest, htree, htold, hleaves, hrest, -⟩ :=
    Tree.ofEvents?_of_oneRoot text hroot hcount
  obtain rfl : k = .script := by
    rw [told_node] at htold
    injection htold with hstart
    injection hstart
  exact ⟨hroot, hcount, ts, rest, htree, htold, hleaves, hrest⟩

end SqlCaret
