import SqlCaret.Syntax.Boundary
import SqlCaret.Syntax.Outline.Nesting

/-!
# Syntax — outline — simple statements

Where a statement without nested statements ends.  Semicolons are optional, so it ends at a
semicolon or where the next statement begins, at the first keyword outside of parentheses that
can begin one.  Several statements hold such keywords by right: `INSERT … SELECT`,
`UNION ALL SELECT`, `UPDATE … SET`, common table expressions, `GRANT SELECT`.  `Clauses` keeps
what the statement can still take, and `continues` asks it.
-/

namespace SqlCaret

/-- How far a simple statement can reach. -/
inductive Reach where
  /-- To a semicolon or the next statement. -/
  | normal
  /-- To a semicolon, as `MERGE` does with its `INSERT` and `UPDATE` clauses. -/
  | semicolon
  /-- To the end of the batch, as the definition of a procedure does. -/
  | batch
deriving Repr, DecidableEq

/-- What the statement read so far can still take. -/
structure Clauses where
  reach : Reach := .normal
  /-- An `INSERT` waits for its `SELECT`, `EXEC` or `VALUES`. -/
  insertOpen : Bool := false
  /-- An `UPDATE` waits for its `SET`. -/
  updateOpen : Bool := false
  /-- A `WITH` waits for the statement that uses its tables. -/
  cteOpen : Bool := false
  /-- A `GRANT`, `REVOKE` or `DENY`, which lists permissions. -/
  permissions : Bool := false
  /-- An `ALTER`, which takes one `ADD`, `DROP` or `SET` action. -/
  alter : Bool := false
  /-- The `ALTER` has its action. -/
  acted : Bool := false
deriving Repr, DecidableEq

namespace Clauses

/-- What a statement can take that begins with the mark ahead. -/
def opening (c : Cursor) : Clauses :=
  if c.startsModule then { reach := .batch }
  else
    match c.keyword? 0 with
    | some .MERGE => { reach := .semicolon }
    | some .WITH => { cteOpen := true }
    | some .INSERT => { insertOpen := true }
    | some .UPDATE => { updateOpen := !c.isKeyword 1 .STATISTICS }
    | some .GRANT | some .REVOKE | some .DENY => { permissions := true }
    | some .ALTER => { alter := true }
    | _ => {}

/-- An `ALTER` that waits for its action. -/
def altering (s : Clauses) : Bool := s.alter && !s.acted

/-- Whether the keyword ahead belongs to this statement and does not begin the next. -/
def continues (s : Clauses) (c : Cursor) : Bool :=
  (s.permissions && c.prevIsAny [.GRANT, .REVOKE, .DENY]) ||
    match c.keyword? 0 with
    | some .SELECT =>
      s.insertOpen || s.cteOpen || c.prevIsAny [.UNION, .EXCEPT, .INTERSECT, .ALL, .FOR]
    | some .INSERT => s.cteOpen || c.prevIsAny [.BULK, .FOR]
    | some .UPDATE | some .DELETE =>
      s.cteOpen || c.prevIsAny [.FOR] ||
        (c.prevIsAny [.ON] && c.isAny 1 [.CASCADE, .NO, .SET])
    | some .MERGE => s.cteOpen
    | some .SET =>
      s.updateOpen || s.altering ||
        (c.prevIsAny [.DELETE, .UPDATE] && c.isAny 1 [.NULL, .DEFAULT])
    | some .EXEC | some .EXECUTE => s.insertOpen
    | some .FETCH => c.prevIsAny [.ROWS, .ROW]
    | some .IF => c.isKeyword 1 .EXISTS && c.prevIsAny Keyword.droppable
    | some .ALTER => s.altering && c.isKeyword 1 .COLUMN
    | some .DROP | some .ENABLE | some .DISABLE => s.altering
    | _ => false

/-- After the keyword ahead was found to belong to this statement. -/
def absorb (s : Clauses) (c : Cursor) : Clauses :=
  let s := if s.alter then { s with acted := true } else s
  match c.keyword? 0 with
  | some .SELECT | some .EXEC | some .EXECUTE =>
    { s with insertOpen := false, cteOpen := false }
  | some .INSERT => { s with insertOpen := !c.prevIsAny [.BULK], cteOpen := false }
  | some .UPDATE => { s with updateOpen := s.cteOpen, cteOpen := false }
  | some .DELETE => { s with cteOpen := false }
  | some .MERGE => { s with cteOpen := false, reach := .semicolon }
  | some .SET => { s with updateOpen := false }
  | _ => s

/-- After a plain word that changes what can follow. -/
def note (s : Clauses) (c : Cursor) : Clauses :=
  match c.keyword? 0 with
  | some .VALUES => { s with insertOpen := false }
  | some .ADD => if s.alter then { s with acted := true } else s
  | _ => s

end Clauses

namespace Outline

/-- What a simple statement does with the mark ahead. -/
def judgeSimple (s : Clauses × Nesting) (c : Cursor) : Verdict (Clauses × Nesting) :=
  let (clauses, nesting) := s
  if c.atSeparator then .stop
  else if clauses.reach ≠ .batch ∧ nesting.atTop then
    if c.atKind .semicolon then .last
    else if nesting.outsideCase && (c.atKeyword .ELSE || c.atClosingEnd) then .stop
    else if clauses.reach = .normal ∧ c.startsStatement then
      if clauses.continues c then .go ((clauses.absorb c).note c, nesting.pass c) else .stop
    else .go (clauses.note c, nesting.pass c)
  else .go (clauses, nesting.pass c)

/-- A statement with no statement inside.  Its first mark is taken in any case. -/
def simple : Rule Outline := fun c =>
  let first := c.take
  let r := first.2.collect judgeSimple (Clauses.opening c, ({} : Nesting).pass c)
  ⟨.node .statement (first.1 ++ r.1), r.2.1.2.finish, r.2.2⟩

end Outline

end SqlCaret
