import SqlCaret.Statement

/-!
# Statement — validate

A script is well formed when every statement lies inside the one that holds it and no two
neighbours overlap or stand in the wrong order.  `Script.validate` checks the top level of a
batch first, then each of its statements: that the children lie inside, that they stand one
after the other, and then the same for each child.
-/

namespace SqlCaret

/-- How a script can break its form. -/
inductive TreeFault where
  | childOutside (kind : StatementKind) (parent child : Span)
  | siblingsOverlap (first second : Span)
deriving Repr, DecidableEq

def TreeFault.message : TreeFault → String
  | .childOutside kind parent child =>
    kind.name ++ " statement at " ++ child.text ++ " escapes its parent span " ++ parent.text
  | .siblingsOverlap first second =>
    "sibling statements overlap: " ++ first.text ++ " and " ++ second.text

namespace Statement

/-- Whether `second` may not stand right after `first`. -/
def clash (first second : Span) : Bool :=
  first.overlaps second || decide (second.start < first.start)

/-- The first two neighbours that clash. -/
def checkSiblings : List Statement → Except TreeFault Unit
  | s :: t :: rest =>
    if clash s.span t.span then .error (.siblingsOverlap s.span t.span)
    else checkSiblings (t :: rest)
  | _ => .ok ()

/-- The first child that lies outside of its parent. -/
def checkInside (parent : Span) : List Statement → Except TreeFault Unit
  | [] => .ok ()
  | s :: ss =>
    if parent.containsSpan s.span then checkInside parent ss
    else .error (.childOutside s.kind parent s.span)

/-- The two checks on the children of one statement. -/
def checkChildren (parent : Span) (children : List Statement) : Except TreeFault Unit := do
  checkInside parent children
  checkSiblings children

mutual

def validate : Statement → Except TreeFault Unit
  | simple _ => .ok ()
  | block sp cs => do
    checkChildren sp cs
    validateAll cs
  | conditional sp t e => do
    checkChildren sp (t.toList ++ e.toList)
    validateBranch t
    validateBranch e
  | loop sp b => do
    checkChildren sp [b]
    validate b

def validateAll : List Statement → Except TreeFault Unit
  | [] => .ok ()
  | s :: ss => do
    validate s
    validateAll ss

def validateBranch : Option Statement → Except TreeFault Unit
  | none => .ok ()
  | some s => validate s

end

end Statement

namespace Script

def validateBatches : List Batch → Except TreeFault Unit
  | [] => .ok ()
  | b :: bs => do
    Statement.checkSiblings b
    Statement.validateAll b
    validateBatches bs

def validate (s : Script) : Except TreeFault Unit := validateBatches s.batches

end Script

end SqlCaret
