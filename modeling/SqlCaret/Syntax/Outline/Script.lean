import SqlCaret.Syntax.Outline.Compound

/-!
# Syntax — outline — scripts

A script is a batch, and after each separator line another one.  A separator line ends the
batch whatever is still open in it.
-/

namespace SqlCaret.Outline

/-- The statements up to the end of the batch, as one node. -/
def batch : Rule Outline := fun c =>
  let r := items (depthFor c) .never c
  ⟨.node .batch r.value, r.problems, r.rest⟩

/-- A separator and its repeat count. -/
def separator : Rule Outline := fun c =>
  let word := c.take
  let count := word.2.takeIf (word.2.atKind .number && !word.2.afterBreak 0)
  ⟨.node .separator (word.1 ++ count.1), [], count.2⟩

/-- Batches and the separators between them, at most `count` of these. -/
def batches : (count : Nat) → Rule (List Outline)
  | 0, c => ⟨[], [], c⟩
  | n + 1, c =>
    let first := batch c
    if first.rest.atSeparator then
      let line := separator first.rest
      let others := batches n line.rest
      ⟨first.value :: line.value :: others.value,
        first.problems ++ line.problems ++ others.problems, others.rest⟩
    else ⟨[first.value], first.problems, first.rest⟩

/-- The whole script ahead. -/
def script : Rule Outline := fun c =>
  let r := batches (c.ahead.length + 1) c
  ⟨.node .script r.value, r.problems, r.rest⟩

end SqlCaret.Outline
