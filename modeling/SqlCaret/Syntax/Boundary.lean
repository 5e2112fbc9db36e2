import SqlCaret.Syntax.Cursor

/-!
# Syntax — boundary

Where a statement can begin and where a block ends, asked at a cursor.  Nothing here needs the
statement that is being read: the answers depend on the mark before the cursor and on at most
four marks ahead.
-/

namespace SqlCaret

namespace Keyword

/-- The words that begin a statement wherever a statement can begin. -/
def starters : List Keyword :=
  [.ALTER, .BACKUP, .BEGIN, .BREAK, .BULK, .CHECKPOINT, .CLOSE, .COMMIT, .CONTINUE, .CREATE,
    .DBCC, .DEALLOCATE, .DECLARE, .DELETE, .DENY, .DROP, .EXEC, .EXECUTE, .FETCH, .GOTO, .GRANT,
    .IF, .INSERT, .MERGE, .OPEN, .PRINT, .RAISERROR, .READTEXT, .RECONFIGURE, .RESTORE, .RETURN,
    .REVERT, .REVOKE, .ROLLBACK, .SELECT, .SET, .SHUTDOWN, .THROW, .TRUNCATE, .UPDATE,
    .UPDATETEXT, .USE, .WAITFOR, .WHILE, .WRITETEXT]

/-- The words after `BEGIN` that make it a simple statement, not a block. -/
def beginSimple : List Keyword :=
  [.TRAN, .TRANSACTION, .DISTRIBUTED, .DIALOG, .CONVERSATION]

/-- The objects whose definition takes the rest of its batch for a body. -/
def modules : List Keyword := [.PROC, .PROCEDURE, .FUNCTION, .TRIGGER, .VIEW]

/-- The words that may stand before `IF EXISTS` in a `DROP`. -/
def droppable : List Keyword :=
  [.DROP, .TABLE, .VIEW, .PROCEDURE, .PROC, .FUNCTION, .INDEX, .DATABASE, .SCHEMA, .TRIGGER,
    .COLUMN, .CONSTRAINT, .TYPE, .USER, .ROLE, .SEQUENCE, .SYNONYM, .DEFAULT, .RULE, .ASSEMBLY]

end Keyword

namespace Cursor

/-- Whether common table expressions start here: `WITH name AS (`, `WITH name (` or
`WITH XMLNAMESPACES`.  Any other `WITH` is a hint or a list of options. -/
def startsCte (c : Cursor) : Bool :=
  c.atKeyword .WITH &&
    (c.isKeyword 1 .XMLNAMESPACES ||
      ((c.kind 1 == .word || c.kind 1 == .quotedIdent) &&
        (c.kind 2 == .leftParen || (c.isKeyword 2 .AS && c.kind 3 == .leftParen))))

/-- Whether a word right after the mark before the cursor is a name and no keyword, as in
`t.open`, `a, close` or `AS update`. -/
def afterNameIntro (c : Cursor) : Bool :=
  c.prevKind == .dot || c.prevKind == .comma || c.prevIsAny [.AS]

/-- Whether the keyword ahead begins a statement. -/
def startsStatement (c : Cursor) : Bool :=
  if c.kind 0 != .word || c.afterNameIntro then false
  else
    match c.keyword? 0 with
    | some .WITH => c.startsCte
    | some .UPDATE => c.kind 1 != .leftParen
    | some .SAVE => c.isAny 1 [.TRAN, .TRANSACTION]
    | some .ENABLE | some .DISABLE => c.isKeyword 1 .TRIGGER
    | some .END => c.isKeyword 1 .CONVERSATION
    | some k => Keyword.starters.contains k
    | none => false

/-- Whether an `END` is ahead that ends something, which `END CONVERSATION` does not. -/
def atClosingEnd (c : Cursor) : Bool := c.atKeyword .END && !c.isKeyword 1 .CONVERSATION

/-- Whether the `END` of a plain block is ahead. -/
def closesBlock (c : Cursor) : Bool :=
  c.atKeyword .END && !c.isAny 1 [.TRY, .CATCH, .CONVERSATION]

/-- Whether the body of an `IF`, `ELSE` or `WHILE` can begin here. -/
def admitsStatement (c : Cursor) : Bool :=
  !c.atBatchEnd && !c.atKind .semicolon && !c.atKind .rightParen && !c.atKeyword .ELSE &&
    !c.atClosingEnd

/-- Whether a condition can begin here. -/
def admitsCondition (c : Cursor) : Bool := c.admitsStatement && !c.startsStatement

/-- Whether `CREATE PROCEDURE`, `CREATE OR ALTER VIEW` and the like start here. -/
def startsModule (c : Cursor) : Bool :=
  c.isAny 0 [.CREATE, .ALTER] &&
    c.isAny (if c.isKeyword 1 .OR && c.isKeyword 2 .ALTER then 3 else 1) Keyword.modules

end Cursor

end SqlCaret
