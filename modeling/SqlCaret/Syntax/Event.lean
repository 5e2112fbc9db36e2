import SqlCaret.Syntax.Tree

/-!
# Syntax — events

A tree told as a sequence: a node begins, a token comes, a node ends.  A placeholder is where a
node may yet begin; it has no effect by itself.  Events name kinds only, so they can be written
down before anyone knows where the white space and the comments go.

`Tree.events` tells a tree over anything with a kind.
-/

namespace SqlCaret

inductive Event where
  | start (kind : Kind)
  | token (kind : Kind)
  | finish
  | placeholder
deriving Repr, DecidableEq

namespace Tree

variable {α : Type}

mutual

/-- The events that tell a tree, with `kindOf` the kind of a leaf. -/
def events (kindOf : α → Kind) : Tree α → List Event
  | leaf a => [.token (kindOf a)]
  | node k ts => .start k :: (eventsOfList kindOf ts ++ [.finish])

/-- The events that tell trees in a row. -/
def eventsOfList (kindOf : α → Kind) : List (Tree α) → List Event
  | [] => []
  | t :: ts => events kindOf t ++ eventsOfList kindOf ts

end

end Tree

end SqlCaret
