import SqlCaret.Syntax.Event
import SqlCaret.Syntax.Outline

/-!
# Syntax — recorder

Events are recorded before it is known what a node will be, or whether there will be one.
`start` leaves a placeholder and answers a marker, the place of that placeholder.  A marker is
used once: `complete` makes the placeholder the beginning of a node and ends the node here, and
`abandon` drops the node, so that its tokens stay in the node around it.

Between the two the recorder reads along: `bump` passes a token and `eat` passes one of a given
kind.  Markers may be used in any order.  A recorder goes wrong only when a marker's place holds
no placeholder, and then there is no next recorder; `Recorder.tell` uses every marker as it
should.
-/

namespace SqlCaret

structure Recorder where
  cursor : Cursor
  events : Array Event := #[]
  /-- The problems reported, in order. -/
  problems : List Problem := []

namespace Recorder

/-- Nothing recorded, in front of the first of `marks`. -/
def ofMarks (marks : List Mark) : Recorder := { cursor := Cursor.ofMarks marks }

/-- Begins a node that has no kind yet. -/
def start (r : Recorder) : Nat × Recorder :=
  (r.events.size, { r with events := r.events.push .placeholder })

/-- Passes the token ahead, if there is one. -/
def bump (r : Recorder) : Recorder :=
  if r.cursor.atEnd then r
  else
    { r with events := r.events.push (.token (r.cursor.kind 0)), cursor := r.cursor.advance }

/-- Passes the token ahead if it is of kind `k`, and answers whether it was. -/
def eat (r : Recorder) (k : Kind) : Bool × Recorder :=
  if r.cursor.atKind k then (true, r.bump) else (false, r)

/-- Reports a fault at the token ahead. -/
def report (r : Recorder) (fault : SyntaxFault) : Recorder :=
  { r with problems := r.problems ++ [⟨fault, r.cursor.index⟩] }

/-- Makes the node that `marker` began one of kind `k` that ends here. -/
def complete (r : Recorder) (marker : Nat) (k : Kind) : Option Recorder :=
  if r.events[marker]? = some .placeholder then
    some { r with events := (r.events.setIfInBounds marker (.start k)).push .finish }
  else none

/-- Drops the node that `marker` began.  Its placeholder goes if it is the latest event, and
stays without effect if not. -/
def abandon (r : Recorder) (marker : Nat) : Option Recorder :=
  if r.events.isEmpty then none
  else if marker + 1 = r.events.size then
    if r.events.back? = some .placeholder then some { r with events := r.events.pop } else none
  else some r

mutual

/-- Records an outline, token by token, each node between its own `start` and `complete`. -/
def tell : Outline → Recorder → Option Recorder
  | .leaf _, r => some r.bump
  | .node k ts, r =>
    let (marker, r) := r.start
    (tellList ts r).bind (·.complete marker k)

def tellList : List Outline → Recorder → Option Recorder
  | [], r => some r
  | t :: ts, r => (tell t r).bind (tellList ts)

end

/-- One operation on a recorder.  Markers are named by the order in which they were started. -/
inductive Action where
  | start
  | bump
  | eat (kind : Kind)
  | report (fault : SyntaxFault)
  | complete (started : Nat) (kind : Kind)
  | abandon (started : Nat)
  /-- Lets a marker go unused, which is always a mistake. -/
  | forget (started : Nat)
deriving Repr, DecidableEq

/-- A recorder and the markers it has given out; a marker that was used is gone. -/
structure Desk where
  recorder : Recorder
  markers : List (Option Nat) := []

namespace Desk

/-- The marker started as the `i`-th, if it was not used yet. -/
def marker? (d : Desk) (i : Nat) : Option Nat := (d.markers[i]?).bind id

/-- Without the marker started as the `i`-th. -/
def use (d : Desk) (i : Nat) : Desk := { d with markers := d.markers.set i none }

/-- What an action does; nothing comes after a mistake. -/
def act (d : Desk) : Action → Option Desk
  | .start =>
    let (m, r) := d.recorder.start
    some { d with recorder := r, markers := d.markers ++ [some m] }
  | .bump => some { d with recorder := d.recorder.bump }
  | .eat k => some { d with recorder := (d.recorder.eat k).2 }
  | .report fault => some { d with recorder := d.recorder.report fault }
  | .complete i k =>
    (d.marker? i).bind fun m =>
      (d.recorder.complete m k).map fun r => { d.use i with recorder := r }
  | .abandon i =>
    (d.marker? i).bind fun m =>
      (d.recorder.abandon m).map fun r => { d.use i with recorder := r }
  | .forget _ => none

def run (d : Desk) : List Action → Option Desk
  | [] => some d
  | a :: as => (d.act a).bind (run · as)

end Desk

end Recorder

end SqlCaret
