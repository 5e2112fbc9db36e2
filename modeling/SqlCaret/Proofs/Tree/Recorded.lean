import SqlCaret.Proofs.Outline.Passing
import SqlCaret.Syntax.Recorder

/-!
# Trees — recorded

What `Recorder.tell` writes down.  Each marker's place still holds its placeholder when the node
is completed, however many events came in between, so the telling never goes wrong (`tell_eq`):
it adds the events of the outline, passes the outline's marks and reports nothing.

The events of a node begin and end that node and nothing outside of it (`ends_events`).
-/

namespace SqlCaret

namespace Event

/-- Whether the events end `n` nodes that are open, those that begin on the way as well, and
come to nothing after the outermost of them: there no token comes, no node begins, and no place
is left open. -/
def ends : (n : Nat) → List Event → Bool
  | 0, es => es.isEmpty
  | n + 1, .start _ :: es => ends (n + 2) es
  | n + 1, .token _ :: es => ends (n + 1) es
  | n + 1, .finish :: es => ends n es
  | _ + 1, .placeholder :: _ => false
  | _ + 1, [] => false

/-- Whether the events begin one node, end it with every node in it, and then stop. -/
def oneRoot : List Event → Bool
  | .start _ :: es => ends 1 es
  | _ => false

/-- The kinds of the tokens that come. -/
def tokens (es : List Event) : List Kind :=
  es.filterMap fun
    | .token k => some k
    | _ => none

end Event

namespace Tree

variable {α : Type} (kindOf : α → Kind)

mutual

/-- The events of a tree leave as many nodes open as there were. -/
theorem ends_events (n : Nat) (es : List Event) : ∀ t : Tree α,
    Event.ends (n + 1) (events kindOf t ++ es) = Event.ends (n + 1) es
  | leaf a => by simp [events, Event.ends]
  | node k ts => by
      simp only [events, List.cons_append, List.append_assoc, Event.ends]
      rw [ends_eventsOfList (n + 1) _ ts]
      rfl

theorem ends_eventsOfList (n : Nat) (es : List Event) : ∀ ts : List (Tree α),
    Event.ends (n + 1) (eventsOfList kindOf ts ++ es) = Event.ends (n + 1) es
  | [] => by simp [eventsOfList]
  | t :: ts => by
      rw [eventsOfList, List.append_assoc, ends_events n _ t, ends_eventsOfList n es ts]

end

/-- A node is told as one root. -/
theorem oneRoot_events (k : Kind) (ts : List (Tree α)) :
    Event.oneRoot (events kindOf (node k ts)) = true := by
  rw [events, Event.oneRoot, ends_eventsOfList]
  rfl

mutual

/-- The tokens that come are the leaves. -/
theorem tokens_events : ∀ t : Tree α, Event.tokens (events kindOf t) = (leaves t).map kindOf
  | leaf a => by simp [events, Event.tokens]
  | node k ts => by
      have ih := tokens_eventsOfList ts
      simp only [Event.tokens] at ih
      simp [events, Event.tokens, ih]

theorem tokens_eventsOfList : ∀ ts : List (Tree α),
    Event.tokens (eventsOfList kindOf ts) = (leavesOfList ts).map kindOf
  | [] => by simp [eventsOfList, Event.tokens]
  | t :: ts => by
      have iht := tokens_events t
      have ih := tokens_eventsOfList ts
      simp only [Event.tokens] at iht ih
      simp [eventsOfList, Event.tokens, iht, ih]

end

end Tree

/-- Passing some marks and then others comes by the place in between. -/
theorem Cursor.Passes.split {c c' : Cursor} {ms ns : List Mark} (h : c.Passes (ms ++ ns) c') :
    ∃ c₁, c.Passes ms c₁ ∧ c₁.Passes ns c' := by
  refine ⟨⟨ms.getLast?.or c.prev, ns ++ c'.ahead, c.index + ms.length⟩, ⟨?_, rfl, rfl⟩,
    ⟨rfl, ?_, ?_⟩⟩
  · rw [h.ahead, List.append_assoc]
  · rw [h.index, List.length_append, Nat.add_assoc]
  · rw [h.prev, List.getLast?_append, Option.or_assoc]

namespace Recorder

open SqlCaret.Tree

theorem bump_eq {r : Recorder} {m : Mark} {c : Cursor} (h : r.cursor.Passes [m] c) :
    r.bump = { r with cursor := c, events := r.events.push (.token m.kind) } := by
  obtain ⟨⟨prev, ahead, index⟩, events, problems⟩ := r
  obtain ⟨prev', ahead', index'⟩ := c
  obtain ⟨hahead, hindex, hprev⟩ := h
  simp only [List.singleton_append] at hahead
  subst hahead hindex hprev
  rfl

/-- A node is completed where its placeholder still is, with any events after it. -/
theorem complete_eq (r : Recorder) (k : Kind) (es fs : Array Event)
    (h : r.events = es.push .placeholder ++ fs) :
    r.complete es.size k = some { r with events := (es.push (.start k) ++ fs).push .finish } := by
  have hplace : r.events[es.size]? = some .placeholder := by
    rw [h, Array.getElem?_append_left (by simp), Array.getElem?_push_size]
  have hset : r.events.setIfInBounds es.size (.start k) = es.push (.start k) ++ fs := by
    apply Array.toList_inj.mp
    simp [h, List.set_append_right]
  rw [complete, if_pos hplace, hset]

mutual

/-- **Telling an outline adds its events and passes its marks.** -/
theorem tell_eq : ∀ (t : Outline) (r : Recorder) (c : Cursor), r.cursor.Passes (leaves t) c →
    r.tell t = some { r with cursor := c, events := r.events ++ (t.events Mark.kind).toArray }
  | .leaf m, r, c, h => by
      rw [leaves_leaf] at h
      rw [tell, bump_eq h, Tree.events]
      simp
  | .node k ts, r, c, h => by
      rw [leaves_node] at h
      simp only [tell, start]
      -- the children are told behind the placeholder and leave it where it is
      rw [tellList_eq ts { r with events := r.events.push .placeholder } c h, Option.bind_some,
        complete_eq _ k r.events _ rfl]
      simp [Tree.events]

theorem tellList_eq : ∀ (ts : List Outline) (r : Recorder) (c : Cursor),
    r.cursor.Passes (leavesOfList ts) c →
    r.tellList ts =
      some { r with cursor := c, events := r.events ++ (eventsOfList Mark.kind ts).toArray }
  | [], r, c, h => by
      obtain ⟨hahead, hindex, hprev⟩ := h
      obtain ⟨⟨prev, ahead, index⟩, es, problems⟩ := r
      obtain ⟨prev', ahead', index'⟩ := c
      simp only [leavesOfList_nil, List.nil_append, List.length_nil, Nat.add_zero,
        List.getLast?_nil, Option.none_or] at hahead hindex hprev
      subst hahead hindex hprev
      simp [tellList, eventsOfList]
  | t :: ts, r, c, h => by
      rw [leavesOfList_cons] at h
      obtain ⟨c₁, ht, hts⟩ := h.split
      rw [tellList, tell_eq t r c₁ ht, Option.bind_some, tellList_eq ts _ c hts, eventsOfList]
      simp

end

end Recorder

end SqlCaret
