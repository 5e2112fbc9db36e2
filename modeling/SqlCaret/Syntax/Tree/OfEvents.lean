import SqlCaret.Syntax.Event
import SqlCaret.Syntax.Token

/-!
# Syntax — trees — from events

Building the syntax tree of a text from events and from all of its lexemes.  The events name
the significant lexemes only, so the white space and the comments are put back on the way: in
front of the next node or token they go to the node that is open then, and what is left at the
very end goes to the root.  So a node begins with its first significant token and ends with
its last.

`Weaving` is the work in progress.  A step fails only where the events make no tree: an end or
a token outside of the root, a token too many, or a second root.
-/

namespace SqlCaret

/-- A syntax tree of a text. -/
abbrev SyntaxTree := Tree Lexeme

/-- A node that has begun: its kind and its children so far, the latest first. -/
structure OpenNode where
  kind : Kind
  children : List SyntaxTree

/-- A syntax tree in the making. -/
structure Weaving where
  /-- The lexemes that are not in the tree yet. -/
  ahead : List Lexeme
  /-- The nodes that have begun and not ended, the innermost first. -/
  stack : List OpenNode := []
  /-- The tree, once its root has ended. -/
  root : Option SyntaxTree := none

namespace Weaving

/-- Adds a child to the innermost open node; there is nothing to add to without one. -/
def add (w : Weaving) (t : SyntaxTree) : Weaving :=
  match w.stack with
  | [] => w
  | n :: ns => { w with stack := ⟨n.kind, t :: n.children⟩ :: ns }

/-- Adds the trivia in front of what is ahead. -/
def addTrivia (w : Weaving) : Weaving :=
  let trivia := w.ahead.takeWhile (·.kind.isTrivia)
  trivia.foldl (fun w l => w.add (.leaf l))
    { w with ahead := w.ahead.dropWhile (·.kind.isTrivia) }

/-- What one event does. -/
def step (w : Weaving) : Event → Option Weaving
  | .start kind =>
    match w.stack, w.root with
    | [], some _ => none
    | [], none => some { w with stack := [⟨kind, []⟩] }
    | _ :: _, _ =>
      let w := w.addTrivia
      some { w with stack := ⟨kind, []⟩ :: w.stack }
  | .token kind =>
    match w.stack with
    | [] => none
    | _ :: _ =>
      let w := w.addTrivia
      match w.ahead with
      | [] => none
      | l :: ls => some ({ w with ahead := ls }.add (.leaf ⟨kind, l.text⟩))
  | .finish =>
    match w.stack with
    | [] => none
    | [_] =>
      let w := w.addTrivia
      match w.stack with
      | n :: _ => some { w with stack := [], root := some (.node n.kind n.children.reverse) }
      | [] => none
    | n :: ns => some ({ w with stack := ns }.add (.node n.kind n.children.reverse))
  | .placeholder => some w

def run (w : Weaving) : List Event → Option Weaving
  | [] => some w
  | e :: es => (w.step e).bind (run · es)

end Weaving

/-- The tree that events tell over the lexemes of a text, if they tell one. -/
def Tree.ofEvents? (ls : List Lexeme) (es : List Event) : Option SyntaxTree :=
  (Weaving.run { ahead := ls } es).bind fun w => if w.stack.isEmpty then w.root else none

end SqlCaret
