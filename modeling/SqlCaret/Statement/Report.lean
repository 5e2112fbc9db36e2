import SqlCaret.Json.Fields
import SqlCaret.Statement

/-!
# Statement — report

Scripts as JSON.  A statement is an object with its kind, its span and what is inside it; a
missing branch is `null`.
-/

namespace SqlCaret

namespace Statement

mutual

def toJson : Statement → Json
  | simple sp => .record [("kind", .text "simple"), ("span", sp.toJson)]
  | block sp cs =>
    .record [("kind", .text "block"), ("span", sp.toJson), ("children", .array (toJsons cs))]
  | conditional sp t e =>
    .record [("kind", .text "conditional"), ("span", sp.toJson),
      ("then_branch", branchToJson t), ("else_branch", branchToJson e)]
  | loop sp b =>
    .record [("kind", .text "loop"), ("span", sp.toJson), ("body", toJson b)]

def toJsons : List Statement → List Json
  | [] => []
  | s :: ss => toJson s :: toJsons ss

def branchToJson : Option Statement → Json
  | none => .null
  | some s => toJson s

end

end Statement

def Script.toJson (s : Script) : Json :=
  .record [("batches",
    .array (s.batches.map fun b => .record [("statements", .array (Statement.toJsons b))]))]

end SqlCaret
