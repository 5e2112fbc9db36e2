import Mathlib.Data.List.Basic
import SqlCaret.Proofs.Statement.Walk

/-!
# Statement — routes

Where a statement is in a script, as the numbers on the way down to it: of its batch, of the
outermost statement in the batch, of the child to take, and so on.  `Script.at?` follows such a
route one number at a time, so that the routes tell all places that there are.

`entries` lists the statements with their routes, as many times as there are places: it has the
routes that lead to a statement, and them in order (`Script.enumerates_entries`).  So each route is
there once, the route to a parent in front of those to its children, and those in the order of the
children.  The walk meets the statements in this order (`Script.map_entries`).
-/

namespace SqlCaret

/-- The way down to a statement. -/
abbrev Route := List Nat

namespace Route

variable {α β : Type} {ess : List (List (Route × α))}

/-- What is found in the one of `ts` that the first number tells, on the rest of the route. -/
def below (find : β → Route → Option α) (ts : List β) : Route → Option α
  | [] => none
  | i :: r => ts[i]?.bind (find · r)

/-- Entries put together, with the number of the row in front of each route. -/
def numbered (n : Nat) : List (List (Route × α)) → List (Route × α)
  | [] => []
  | es :: ess => es.map (fun e => (n :: e.1, e.2)) ++ numbered (n + 1) ess

/-- The entries are the routes on which something is found, in order, with what is found there. -/
structure Enumerates (find : Route → Option α) (es : List (Route × α)) : Prop where
  ordered : es.Pairwise fun e f => e.1 < f.1
  mem_iff : ∀ r a, (r, a) ∈ es ↔ find r = some a

theorem mem_numbered {n : Nat} {r : Route} {a : α} :
    (r, a) ∈ numbered n ess ↔ ∃ i r' es, ess[i]? = some es ∧ r = (n + i) :: r' ∧ (r', a) ∈ es := by
  induction ess generalizing n with
  | nil => simp [numbered]
  | cons es ess ih =>
      rw [numbered, List.mem_append, List.mem_map, ih]
      constructor
      · rintro (⟨e, he, h⟩ | ⟨i, r', es', hes, rfl, h⟩)
        · obtain ⟨rfl, rfl⟩ := Prod.mk.inj h
          exact ⟨0, e.1, es, rfl, rfl, he⟩
        · exact ⟨i + 1, r', es', hes, by rw [Nat.add_right_comm, Nat.add_assoc], h⟩
      · rintro ⟨i, r', es', hes, rfl, h⟩
        cases i with
        | zero =>
            obtain rfl : es = es' := Option.some.inj hes
            exact .inl ⟨(r', a), h, rfl⟩
        | succ i => exact .inr ⟨i, r', es', hes, by rw [Nat.add_right_comm, Nat.add_assoc], h⟩

theorem pairwise_numbered (h : ∀ es ∈ ess, es.Pairwise fun e f => e.1 < f.1) (n : Nat) :
    (numbered n ess).Pairwise fun e f => e.1 < f.1 := by
  induction ess generalizing n with
  | nil => exact List.Pairwise.nil
  | cons es ess ih =>
      rw [List.forall_mem_cons] at h
      rw [numbered, List.pairwise_append]
      refine ⟨?_, ih h.2 (n + 1), fun e he f hf => ?_⟩
      · exact List.pairwise_map.mpr (h.1.imp fun hlt => List.cons_lt_cons_iff.mpr (.inr ⟨rfl, hlt⟩))
      · -- the routes of the rows behind begin with a greater number
        obtain ⟨e', -, rfl⟩ := List.mem_map.mp he
        obtain ⟨i, r', -, -, hr, -⟩ := mem_numbered.mp (show (f.1, f.2) ∈ _ from hf)
        rw [hr]
        exact List.cons_lt_cons_iff.mpr (.inl (by omega))

/-- What is found in each row is found in all of them. -/
theorem Enumerates.below {find : β → Route → Option α} {entries : β → List (Route × α)}
    {ts : List β} (h : ∀ t ∈ ts, Enumerates (find t) (entries t)) :
    Enumerates (below find ts) (numbered 0 (ts.map entries)) where
  ordered := pairwise_numbered (List.forall_mem_map.mpr fun t ht => (h t ht).ordered) 0
  mem_iff r a := by
    rw [mem_numbered]
    simp only [List.getElem?_map, Option.map_eq_some_iff, Nat.zero_add]
    constructor
    · rintro ⟨i, r', es, ⟨t, ht, rfl⟩, rfl, hmem⟩
      rw [Route.below, ht, Option.bind_some]
      exact ((h t (List.mem_of_getElem? ht)).mem_iff r' a).mp hmem
    · intro hfind
      cases r with
      | nil => cases hfind
      | cons i r =>
          obtain ⟨t, ht, hfind⟩ := Option.bind_eq_some_iff.mp hfind
          have hmem := ((h t (List.mem_of_getElem? ht)).mem_iff r a).mpr hfind
          exact ⟨i, r, _, ⟨t, ht, rfl⟩, rfl, hmem⟩

theorem map_numbered (n : Nat) (ess : List (List (Route × α))) :
    (numbered n ess).map (·.2) = ess.flatMap (·.map (·.2)) := by
  induction ess generalizing n with
  | nil => rfl
  | cons es ess ih =>
      rw [numbered, List.map_append, ih, List.map_map, List.flatMap_cons]
      rfl

end Route

namespace Statement

/-- The statement at the end of a route that starts at the statement `s`. -/
def at? (s : Statement) : Route → Option Statement
  | [] => some s
  | i :: r => s.children[i]?.bind (at? · r)

/-- A statement and all that is inside it, each with its route from there. -/
def entries (s : Statement) : List (Route × Statement) :=
  ([], s) :: Route.numbered 0 (s.children.attach.map fun c => entries c.1)
termination_by s.count
decreasing_by exact count_lt_of_mem_children c.2

theorem entries_eq (s : Statement) :
    s.entries = ([], s) :: Route.numbered 0 (s.children.map entries) := by
  rw [entries, List.attach_map_val]

theorem at?_cons (s : Statement) (i : Nat) (r : Route) :
    s.at? (i :: r) = Route.below at? s.children (i :: r) := rfl

theorem enumerates_entries (s : Statement) : Route.Enumerates s.at? s.entries := by
  induction s using children_induction with
  | h s ih =>
      have hbelow := Route.Enumerates.below ih
      rw [entries_eq]
      refine ⟨List.pairwise_cons.mpr ⟨fun e he => ?_, hbelow.ordered⟩, fun r d => ?_⟩
      · obtain ⟨i, r', -, -, hr, -⟩ := Route.mem_numbered.mp (show (e.1, e.2) ∈ _ from he)
        rw [hr]
        exact List.nil_lt_cons _ _
      · rw [List.mem_cons, hbelow.mem_iff]
        cases r with
        | nil => simp [at?, Route.below, eq_comm]
        | cons i r => simp [at?_cons]

theorem map_entries (s : Statement) : s.entries.map (·.2) = s.preorder := by
  induction s using children_induction with
  | h s ih =>
      rw [entries_eq, List.map_cons, Route.map_numbered, List.flatMap_map, preorder_eq,
        preorderOfList_eq_flatMap, List.flatMap_congr ih]

end Statement

namespace Script

/-- The statement at the end of a route: its batch, the outermost statement, and on from there. -/
def at? (s : Script) : Route → Option Statement := Route.below (Route.below Statement.at?) s.batches

/-- The statements of a script with their routes. -/
def entries (s : Script) : List (Route × Statement) :=
  Route.numbered 0 (s.batches.map fun b => Route.numbered 0 (b.map Statement.entries))

/-- **The entries are all routes in order**, with the statements that they lead to. -/
theorem enumerates_entries (s : Script) : Route.Enumerates s.at? s.entries :=
  .below fun _ _ => .below fun t _ => t.enumerates_entries

/-- **The walk meets the statements in the order of their routes.** -/
theorem map_entries (s : Script) : s.entries.map (·.2) = s.walk := by
  rw [entries, Route.map_numbered, List.flatMap_map, walk_eq, topLevel, List.flatten_eq_flatMap,
    Statement.preorderOfList_eq_flatMap, List.flatMap_assoc]
  refine List.flatMap_congr fun b _ => ?_
  rw [Route.map_numbered, List.flatMap_map]
  exact List.flatMap_congr fun t _ => t.map_entries

end Script

end SqlCaret
