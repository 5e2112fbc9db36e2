import SqlCaret.Syntax.Cursor
import SqlCaret.Syntax.Problem
import SqlCaret.Syntax.Tree

/-!
# Syntax — outline

The outline of a script is a tree over marks: what the grammar finds, before white space and
comments are put back.  A rule of the grammar reads from a cursor; its reading holds what was
found, the problems met on the way, in the order they were met, and the cursor after it.

No rule gives up.  A rule takes marks from the front of what is ahead and keeps every one of
them, so an outline always holds all marks of the script.
-/

namespace SqlCaret

/-- A tree over marks. -/
abbrev Outline := Tree Mark

structure Reading (α : Type) where
  value : α
  problems : List Problem
  rest : Cursor

/-- A way to read from a cursor. -/
abbrev Rule (α : Type) := Cursor → Reading α

namespace Cursor

/-- The next mark as a leaf, and the cursor past it.  At the end there is no leaf. -/
def take (c : Cursor) : List Outline × Cursor :=
  match c.ahead with
  | m :: ms => ([.leaf m], ⟨some m, ms, c.index + 1⟩)
  | [] => ([], c)

/-- The next mark if `p` holds of the cursor, and nothing otherwise. -/
def takeIf (c : Cursor) (p : Bool) : List Outline × Cursor := if p then c.take else ([], c)

end Cursor

/-- What to do with the mark ahead. -/
inductive Verdict (σ : Type) where
  /-- Leave it. -/
  | stop
  /-- Take it and stop. -/
  | last
  /-- Take it and go on with a new state. -/
  | go (state : σ)

/-- The marks that a judge takes one after the other, from the marks `ahead`. -/
def collect {σ : Type} (judge : σ → Cursor → Verdict σ) (state : σ) (prev : Option Mark)
    (index : Nat) : (ahead : List Mark) → List Outline × σ × Cursor
  | [] => ([], state, ⟨prev, [], index⟩)
  | m :: ms =>
    match judge state ⟨prev, m :: ms, index⟩ with
    | .stop => ([], state, ⟨prev, m :: ms, index⟩)
    | .last => ([.leaf m], state, ⟨some m, ms, index + 1⟩)
    | .go state =>
      let r := collect judge state (some m) (index + 1) ms
      (.leaf m :: r.1, r.2)

/-- The marks that a judge takes from a cursor. -/
def Cursor.collect {σ : Type} (judge : σ → Cursor → Verdict σ) (state : σ) (c : Cursor) :
    List Outline × σ × Cursor :=
  SqlCaret.collect judge state c.prev c.index c.ahead

end SqlCaret
