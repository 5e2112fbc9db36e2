import SqlCaret.Syntax.Outline.Simple

/-!
# Syntax — outline — compound statements

The statements that hold others: blocks, try and catch sections, `IF` and `WHILE`.  The rules
call each other in a circle, so each is written over the rules it needs as arguments:
`statement`, which reads one statement, and `items`, which reads statements up to a `Closer`.
`Outline.statement` and `Outline.items` tie the circle by a depth that the script's length
bounds.
-/

namespace SqlCaret

/-- What ends a row of statements, apart from the end of the batch. -/
inductive Closer where
  /-- Nothing: the row is the batch itself. -/
  | never
  /-- The `END` of a block. -/
  | block
  /-- `END TRY`. -/
  | tryEnd
  /-- `END CATCH`. -/
  | catchEnd
deriving Repr, DecidableEq

/-- Whether the closer is ahead. -/
def Closer.closes : Closer → Cursor → Bool
  | .never, _ => false
  | .block, c => c.closesBlock
  | .tryEnd, c => c.atKeyword .END && c.isKeyword 1 .TRY
  | .catchEnd, c => c.atKeyword .END && c.isKeyword 1 .CATCH

namespace Outline

/-- What a condition does with the mark ahead.  Nothing marks the end of a condition, so it
runs to the first token outside of parentheses that begins a statement. -/
def judgeCondition (nesting : Nesting) (c : Cursor) : Verdict Nesting :=
  if c.atSeparator then .stop
  else if nesting.atTop && (c.atKind .semicolon || c.startsStatement) then .stop
  else if nesting.atTop && nesting.outsideCase && (c.atKeyword .ELSE || c.atKeyword .END) then
    .stop
  else .go (nesting.pass c)

/-- The condition of an `IF` or `WHILE`. -/
def condition (owner : Owner) : Rule (List Outline) := fun c =>
  if c.admitsCondition then
    let first := c.take
    let r := first.2.collect judgeCondition (({} : Nesting).pass c)
    ⟨[.node .condition (first.1 ++ r.1)], r.2.1.finish, r.2.2⟩
  else ⟨[], [⟨.noCondition owner, c.index⟩], c⟩

section
variable (statement : Rule Outline) (items : Closer → Rule (List Outline))

/-- The one statement that an `IF`, `ELSE` or `WHILE` governs. -/
def body (owner : Owner) : Rule (List Outline) := fun c =>
  if c.admitsStatement then
    let r := statement c
    ⟨[r.value], r.problems, r.rest⟩
  else ⟨[], [⟨.noStatement owner, c.index⟩], c⟩

/-- `BEGIN … END`. -/
def block : Rule Outline := fun c =>
  let opening := c.take
  let inner := items .block opening.2
  if inner.rest.atBatchEnd then
    ⟨.node .block (opening.1 ++ inner.value), inner.problems ++ [⟨.beginOpen, c.index⟩],
      inner.rest⟩
  else
    let closing := inner.rest.take
    let semicolon := closing.2.takeIf (closing.2.atKind .semicolon)
    ⟨.node .block (opening.1 ++ inner.value ++ closing.1 ++ semicolon.1), inner.problems,
      semicolon.2⟩

/-- `BEGIN TRY … END TRY`, or the same with `CATCH`, and whether the end was found.  The two
opening words are taken in any case. -/
def sectionOf (closer : Closer) : Rule (List Outline × Bool) := fun c =>
  let opening₁ := c.take
  let opening₂ := opening₁.2.take
  let inner := items closer opening₂.2
  if inner.rest.atBatchEnd then
    ⟨(opening₁.1 ++ opening₂.1 ++ inner.value, false), inner.problems, inner.rest⟩
  else
    let closing₁ := inner.rest.take
    let closing₂ := closing₁.2.take
    let semicolon := closing₂.2.takeIf (closing₂.2.atKind .semicolon)
    ⟨(opening₁.1 ++ opening₂.1 ++ inner.value ++ closing₁.1 ++ closing₂.1 ++ semicolon.1, true),
      inner.problems, semicolon.2⟩

/-- A try section and the catch section that has to follow. -/
def tryCatch : Rule Outline := fun c =>
  let t := sectionOf items .tryEnd c
  if t.value.2 then
    if t.rest.atKeyword .BEGIN && t.rest.isKeyword 1 .CATCH then
      let k := sectionOf items .catchEnd t.rest
      ⟨.node .tryCatch (t.value.1 ++ k.value.1),
        t.problems ++ k.problems ++
          (if k.value.2 then [] else [⟨.catchOpen, t.rest.index⟩]),
        k.rest⟩
    else
      ⟨.node .tryCatch t.value.1, t.problems ++ [⟨.tryAlone, t.rest.index⟩], t.rest⟩
  else ⟨.node .tryCatch t.value.1, t.problems ++ [⟨.tryOpen, c.index⟩], t.rest⟩

/-- A catch section with no try section before it. -/
def strayCatch : Rule Outline := fun c =>
  let k := sectionOf items .catchEnd c
  ⟨.node .error k.value.1, ⟨.catchAlone, c.index⟩ :: k.problems, k.rest⟩

/-- The `ELSE` of an `IF`, if there is one. -/
def elseClause : Rule (List Outline) := fun c =>
  if c.atKeyword .ELSE then
    let opening := c.take
    let b := body statement .elseClause opening.2
    ⟨[.node .elseClause (opening.1 ++ b.value)], b.problems, b.rest⟩
  else ⟨[], [], c⟩

/-- `IF condition statement`, with or without `ELSE statement`. -/
def ifStatement : Rule Outline := fun c =>
  let opening := c.take
  let cond := condition .ifClause opening.2
  let yes := body statement .ifClause cond.rest
  let no := elseClause statement yes.rest
  ⟨.node .ifStatement (opening.1 ++ cond.value ++ yes.value ++ no.value),
    cond.problems ++ yes.problems ++ no.problems, no.rest⟩

/-- `WHILE condition statement`. -/
def whileStatement : Rule Outline := fun c =>
  let opening := c.take
  let cond := condition .whileClause opening.2
  let inner := body statement .whileClause cond.rest
  ⟨.node .whileStatement (opening.1 ++ cond.value ++ inner.value),
    cond.problems ++ inner.problems, inner.rest⟩

/-- One statement, told by its first words. -/
def statementBy : Rule Outline := fun c =>
  match c.keyword? 0 with
  | some .BEGIN =>
    if c.isKeyword 1 .TRY then tryCatch items c
    else if c.isKeyword 1 .CATCH then strayCatch items c
    else if c.isAny 1 Keyword.beginSimple then simple c
    else block items c
  | some .IF => ifStatement statement c
  | some .WHILE => whileStatement statement c
  | _ => simple c

/-- One statement, or a token that begins none.  A semicolon by itself is an empty statement
and has no node. -/
def itemBy : Rule (List Outline) := fun c =>
  let first := c.take
  if c.atKind .semicolon then ⟨first.1, [], first.2⟩
  else if c.atClosingEnd then
    let word := first.2.takeIf (first.2.isAny 0 [.TRY, .CATCH])
    ⟨[.node .error (first.1 ++ word.1)], [⟨.endAlone, c.index⟩], word.2⟩
  else if c.atKeyword .ELSE then
    ⟨[.node .error first.1], [⟨.elseAlone, c.index⟩], first.2⟩
  else if c.atKind .rightParen then
    ⟨[.node .error first.1], [⟨.parenAlone, c.index⟩], first.2⟩
  else
    let r := statement c
    ⟨[r.value], r.problems, r.rest⟩

/-- Statements one after the other, up to a closer or the end of the batch. -/
def itemsBy (closer : Closer) : Rule (List Outline) := fun c =>
  if c.atBatchEnd || closer.closes c then ⟨[], [], c⟩
  else
    let first := itemBy statement c
    let others := items closer first.rest
    ⟨first.value ++ others.value, first.problems ++ others.problems, others.rest⟩

end

mutual

/-- One statement, at most `depth` rules deep. -/
def statement : (depth : Nat) → Rule Outline
  | 0, c => ⟨.node .statement [], [], c⟩
  | n + 1, c => statementBy (statement n) (items n) c

/-- Statements up to a closer, at most `depth` rules deep. -/
def items : (depth : Nat) → Closer → Rule (List Outline)
  | 0, _, c => ⟨[], [], c⟩
  | n + 1, closer, c => itemsBy (statement n) (items n) closer c

end

/-- The depth that the marks ahead can need: each statement and each row of statements takes
one, and every second of them takes a mark. -/
def depthFor (c : Cursor) : Nat := 2 * c.ahead.length + 1

end Outline

end SqlCaret
