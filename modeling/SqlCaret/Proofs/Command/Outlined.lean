import SqlCaret.Command
import SqlCaret.Proofs.Statement.Routes
import SqlCaret.Proofs.Statement.Turns

/-!
# Command — outlined

An outline goes down into the statements by itself, without the walk, and still has a line for each
statement that the walk meets, in the same order (`Command.outline_follows_walk`).  Both are told by
the routes: a line is indented by how long the route to its statement is, and stands under the
header of the batch that the route begins with.
-/

namespace SqlCaret

namespace Route

variable {α γ : Type}

/-- Where the length of a route is all that counts, a number in front makes it longer by one. -/
theorem flatMap_numbered (f : Nat → α → List γ) (n : Nat) (ess : List (List (Route × α))) :
    (numbered n ess).flatMap (fun e => f e.1.length e.2) =
      ess.flatMap (·.flatMap fun e => f (e.1.length + 1) e.2) := by
  induction ess generalizing n with
  | nil => rfl
  | cons es ess ih =>
      rw [numbered, List.flatMap_append, ih, List.flatMap_map, List.flatMap_cons]
      rfl

/-- The first number tells the row. -/
theorem filter_numbered {n i : Nat} {ess : List (List (Route × α))} {es : List (Route × α)}
    (h : ess[i]? = some es) :
    (numbered n ess).filter (·.1.head? == some (n + i)) =
      es.map fun e => ((n + i) :: e.1, e.2) := by
  induction ess generalizing n i with
  | nil => cases h
  | cons es' ess ih =>
      rw [numbered, List.filter_append]
      cases i with
      | zero =>
          obtain rfl : es' = es := Option.some.inj h
          -- the batches behind have higher numbers
          have hothers : (numbered (n + 1) ess).filter (·.1.head? == some (n + 0)) = [] := by
            refine List.filter_eq_nil_iff.mpr fun e he => ?_
            obtain ⟨j, r', -, -, hr, -⟩ := mem_numbered.mp (show (e.1, e.2) ∈ _ from he)
            simp [hr]
            omega
          rw [hothers, List.append_nil, List.filter_eq_self.mpr]
          · rfl
          · intro e he
            obtain ⟨e', -, rfl⟩ := List.mem_map.mp he
            simp
      | succ i =>
          -- the first batch has a lower number
          have hfirst : (es'.map fun e => (n :: e.1, e.2)).filter
              (·.1.head? == some (n + (i + 1))) = [] := by
            refine List.filter_eq_nil_iff.mpr fun e he => ?_
            obtain ⟨e', -, rfl⟩ := List.mem_map.mp he
            simp
          rw [hfirst, List.nil_append, show n + (i + 1) = n + 1 + i by omega]
          exact ih h

end Route

namespace Command

open Statement

/-- A line for each entry: the statement's kind and span, two blanks in for each number of the
route but the first. -/
def entryLines (es : List (Route × Statement)) : List Char :=
  es.flatMap fun e =>
    List.replicate (2 * (e.1.length - 1)) ' ' ++ line (e.2.kind.name ++ " " ++ e.2.span.text)

theorem outlineStatements_eq_flatMap (depth : Nat) (ss : List Statement) :
    outlineStatements depth ss = ss.flatMap (outlineStatement depth) := by
  induction ss with
  | nil => rw [outlineStatements, List.flatMap_nil]
  | cons s ss ih => rw [outlineStatements, ih, List.flatMap_cons]

/-- A statement's own line is followed by the lines of its children, further in. -/
theorem outlineStatement_eq (depth : Nat) (s : Statement) :
    outlineStatement depth s =
      outlineHead depth s ++ s.children.flatMap (outlineStatement (depth + 1)) := by
  rw [← outlineStatements_eq_flatMap]
  cases s with
  | simple sp => simp [outlineStatement, children, outlineStatements]
  | block sp cs => simp [outlineStatement, children]
  | conditional sp t e =>
      cases t <;> cases e <;> simp [outlineStatement, children, outlineStatements, outlineBranch]
  | loop sp b => simp [outlineStatement, children, outlineStatements]

/-- The lines of a statement are those of its entries. -/
theorem outlineStatement_eq_entries (depth : Nat) (s : Statement) :
    outlineStatement depth s = s.entries.flatMap fun e => outlineHead (depth + e.1.length) e.2 := by
  induction s using children_induction generalizing depth with
  | h s ih =>
      rw [outlineStatement_eq, entries_eq, List.flatMap_cons,
        Route.flatMap_numbered (fun n => outlineHead (depth + n)), List.flatMap_map]
      refine congrArg _ (List.flatMap_congr fun c hc => ?_)
      simp only [ih c hc, Nat.add_right_comm, Nat.add_assoc]

/-- The lines under a header are those of the entries of the batch. -/
theorem outlineStatements_eq_entryLines (i : Nat) (b : Batch) :
    outlineStatements 1 b =
      entryLines ((Route.numbered 0 (b.map entries)).map fun e => (i :: e.1, e.2)) := by
  rw [outlineStatements_eq_flatMap, entryLines, List.flatMap_map]
  have hlines := Route.flatMap_numbered outlineHead 0 (b.map entries)
  rw [List.flatMap_map] at hlines
  refine Eq.trans (List.flatMap_congr fun s _ => ?_) hlines.symm
  simp only [outlineStatement_eq_entries, Nat.add_comm]

theorem outlineBatches_eq (n : Nat) (bs : List Batch) :
    outlineBatches (n + 1) bs = (bs.zipIdx n).flatMap fun b =>
      line ("batch " ++ toString (b.2 + 1)) ++ outlineStatements 1 b.1 := by
  induction bs generalizing n with
  | nil => rfl
  | cons b bs ih => rw [outlineBatches, ih, List.zipIdx_cons, List.flatMap_cons]

/-- **Each header is followed by the lines of the entries that begin with its batch.** -/
theorem outlineBatches_eq_entryLines (s : Script) :
    outlineBatches 1 s.batches = (List.range s.batches.length).flatMap fun i =>
      line ("batch " ++ toString (i + 1)) ++
        entryLines (s.entries.filter (·.1.head? == some i)) := by
  rw [outlineBatches_eq 0, List.range_eq_range', ← List.zipIdx_map_snd, List.flatMap_map]
  refine List.flatMap_congr fun b hb => ?_
  have hrow : (s.batches.map fun b => Route.numbered 0 (b.map entries))[b.2]? =
      some (Route.numbered 0 (b.1.map entries)) := by
    rw [List.getElem?_map, List.mem_zipIdx_iff_getElem?.mp hb]
    rfl
  have hfilter := Route.filter_numbered (n := 0) hrow
  rw [Nat.zero_add] at hfilter
  rw [Script.entries, hfilter, ← outlineStatements_eq_entryLines]

/-- **An outline follows the walk**, whatever the script.

The turns of the iterator from a script's row give its walk and end behind it; the walk is the
preorder of the batches one after the other, each statement in front of what is inside its children
in order.  Told by routes, it meets the statements at the end of all routes that there are, in the
order of the routes.

The outline has a header for each batch in order, and under it a line for each of these statements
whose route begins with the batch, in the same order: its kind and its span, two blanks in for the
batch and two more for each statement around it.  The errors come behind all of them. -/
theorem outline_follows_walk (reader : ScriptReader) (d : Document) :
    let parsed := reader d.text
    let s := parsed.script
    (∀ ss, Statement.Yields s.stack ss ↔ ss = s.walk) ∧
      s.walk = s.batches.flatMap (·.flatMap preorder) ∧
      (∀ t : Statement, t.preorder = t :: t.children.flatMap preorder) ∧
      Route.Enumerates s.at? s.entries ∧
      s.entries.map (·.2) = s.walk ∧
      outline reader false d =
        ((List.range s.batches.length).flatMap fun i =>
          line ("batch " ++ toString (i + 1)) ++
            entryLines (s.entries.filter (·.1.head? == some i))) ++
        if parsed.isOk then []
        else
          line (toString parsed.errors.length ++ " parse errors") ++
            parsed.errors.flatMap fun e => line ("  " ++ e.text) := by
  intro parsed s
  refine ⟨fun ss => Script.yields_iff, ?_, fun t => ?_, s.enumerates_entries, s.map_entries, ?_⟩
  · rw [Script.walk_eq, preorderOfList_eq_flatMap, Script.topLevel, List.flatten_eq_flatMap,
      List.flatMap_assoc]
    rfl
  · rw [preorder_eq, preorderOfList_eq_flatMap]
  · rw [← outlineBatches_eq_entryLines]
    rfl

end Command

end SqlCaret
