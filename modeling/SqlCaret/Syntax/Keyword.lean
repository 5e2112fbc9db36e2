import SqlCaret.Text.Letters

/-!
# Syntax — keywords

The words that the grammar knows.  A keyword is no token kind of its own, since nearly all of
them may also be names: it is a word token that is read as a keyword where the grammar asks.
`ofWord?` finds the keyword that a word spells; letter case makes no difference to it
(`ofWord?_congr`).
-/

namespace SqlCaret

inductive Keyword where
  | ADD | ALL | ALTER | AS | ASSEMBLY | BACKUP | BEGIN | BREAK | BULK | CASCADE | CASE
  | CATCH | CHECKPOINT | CLOSE | COLUMN | COMMIT | CONSTRAINT | CONTINUE | CONVERSATION
  | CREATE | DATABASE | DBCC | DEALLOCATE | DECLARE | DEFAULT | DELETE | DENY | DIALOG
  | DISABLE | DISTRIBUTED | DROP | ELSE | ENABLE | END | EXCEPT | EXEC | EXECUTE | EXISTS
  | FETCH | FOR | FUNCTION | GOTO | GRANT | IF | INDEX | INSERT | INTERSECT | MERGE | NO
  | NULL | ON | OPEN | OR | PRINT | PROC | PROCEDURE | RAISERROR | READTEXT | RECONFIGURE
  | RESTORE | RETURN | REVERT | REVOKE | ROLE | ROLLBACK | ROW | ROWS | RULE | SAVE | SCHEMA
  | SELECT | SEQUENCE | SET | SHUTDOWN | STATISTICS | SYNONYM | TABLE | THROW | TRAN
  | TRANSACTION | TRIGGER | TRUNCATE | TRY | TYPE | UNION | UPDATE | UPDATETEXT | USE | USER
  | VALUES | VIEW | WAITFOR | WHILE | WITH | WRITETEXT | XMLNAMESPACES
deriving Repr, DecidableEq

namespace Keyword

/-- Each keyword with its spelling. -/
def table : List (String × Keyword) :=
  [("ADD", .ADD), ("ALL", .ALL), ("ALTER", .ALTER), ("AS", .AS), ("ASSEMBLY", .ASSEMBLY),
    ("BACKUP", .BACKUP), ("BEGIN", .BEGIN), ("BREAK", .BREAK), ("BULK", .BULK),
    ("CASCADE", .CASCADE), ("CASE", .CASE), ("CATCH", .CATCH), ("CHECKPOINT", .CHECKPOINT),
    ("CLOSE", .CLOSE), ("COLUMN", .COLUMN), ("COMMIT", .COMMIT), ("CONSTRAINT", .CONSTRAINT),
    ("CONTINUE", .CONTINUE), ("CONVERSATION", .CONVERSATION), ("CREATE", .CREATE),
    ("DATABASE", .DATABASE), ("DBCC", .DBCC), ("DEALLOCATE", .DEALLOCATE),
    ("DECLARE", .DECLARE), ("DEFAULT", .DEFAULT), ("DELETE", .DELETE), ("DENY", .DENY),
    ("DIALOG", .DIALOG), ("DISABLE", .DISABLE), ("DISTRIBUTED", .DISTRIBUTED), ("DROP", .DROP),
    ("ELSE", .ELSE), ("ENABLE", .ENABLE), ("END", .END), ("EXCEPT", .EXCEPT), ("EXEC", .EXEC),
    ("EXECUTE", .EXECUTE), ("EXISTS", .EXISTS), ("FETCH", .FETCH), ("FOR", .FOR),
    ("FUNCTION", .FUNCTION), ("GOTO", .GOTO), ("GRANT", .GRANT), ("IF", .IF), ("INDEX", .INDEX),
    ("INSERT", .INSERT), ("INTERSECT", .INTERSECT), ("MERGE", .MERGE), ("NO", .NO),
    ("NULL", .NULL), ("ON", .ON), ("OPEN", .OPEN), ("OR", .OR), ("PRINT", .PRINT),
    ("PROC", .PROC), ("PROCEDURE", .PROCEDURE), ("RAISERROR", .RAISERROR),
    ("READTEXT", .READTEXT), ("RECONFIGURE", .RECONFIGURE), ("RESTORE", .RESTORE),
    ("RETURN", .RETURN), ("REVERT", .REVERT), ("REVOKE", .REVOKE), ("ROLE", .ROLE),
    ("ROLLBACK", .ROLLBACK), ("ROW", .ROW), ("ROWS", .ROWS), ("RULE", .RULE), ("SAVE", .SAVE),
    ("SCHEMA", .SCHEMA), ("SELECT", .SELECT), ("SEQUENCE", .SEQUENCE), ("SET", .SET),
    ("SHUTDOWN", .SHUTDOWN), ("STATISTICS", .STATISTICS), ("SYNONYM", .SYNONYM),
    ("TABLE", .TABLE), ("THROW", .THROW), ("TRAN", .TRAN), ("TRANSACTION", .TRANSACTION),
    ("TRIGGER", .TRIGGER), ("TRUNCATE", .TRUNCATE), ("TRY", .TRY), ("TYPE", .TYPE),
    ("UNION", .UNION), ("UPDATE", .UPDATE), ("UPDATETEXT", .UPDATETEXT), ("USE", .USE),
    ("USER", .USER), ("VALUES", .VALUES), ("VIEW", .VIEW), ("WAITFOR", .WAITFOR),
    ("WHILE", .WHILE), ("WITH", .WITH), ("WRITETEXT", .WRITETEXT),
    ("XMLNAMESPACES", .XMLNAMESPACES)]

def all : List Keyword := table.map (·.2)

/-- The table with spellings as characters, ready to be searched. -/
def entries : List (List Char × Keyword) := table.map fun e => (e.1.toList, e.2)

/-- The keyword that a folded word spells. -/
def ofFolded? (word : List Char) : Option Keyword :=
  (entries.find? (·.1 == word)).map (·.2)

/-- The keyword that a word spells, in any letter case. -/
def ofWord? (word : List Char) : Option Keyword := ofFolded? (Letters.fold word)

/-- Letter case makes no difference to the keyword that a word spells. -/
theorem ofWord?_congr {a b : List Char} (h : Letters.fold a = Letters.fold b) :
    ofWord? a = ofWord? b := by
  simp [ofWord?, h]

end Keyword

end SqlCaret
