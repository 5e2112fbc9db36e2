/-!
# Syntax — kinds

Every token and every node of a syntax tree has one of these kinds.  The token kinds come
first, ended by `endOfFile`, which no token of a text has: it is what a reader finds past the
last one.  *Trivia* are the kinds that the grammar never sees, and a *statement* kind is one
that becomes a statement of the script.
-/

namespace SqlCaret

inductive Kind where
  /-- Spaces and tabs. -/
  | whitespace
  /-- One line ending: LF, CR LF or a lone CR. -/
  | newline
  /-- From `--` up to the end of the line. -/
  | lineComment
  /-- From `/*` to its `*/`; these nest. -/
  | blockComment
  /-- Between single quotes, with or without an `N` in front. -/
  | string
  /-- Between brackets or double quotes. -/
  | quotedIdent
  | number
  /-- Keywords, identifiers, variables and the names of temporary tables. -/
  | word
  | semicolon
  | leftParen
  | rightParen
  | comma
  | dot
  /-- One operator character. -/
  | operator
  /-- A string that the text ends inside. -/
  | unterminatedString
  /-- A quoted identifier that the text ends inside. -/
  | unterminatedIdent
  /-- A block comment that the text ends inside. -/
  | unterminatedComment
  /-- A character that begins no other token. -/
  | unknown
  /-- What stands past the last token. -/
  | endOfFile
  | script
  /-- The statements between two separator lines. -/
  | batch
  /-- A separator line, such as `GO` or `GO 5`. -/
  | separator
  /-- A statement with no statement inside. -/
  | statement
  /-- `BEGIN … END`. -/
  | block
  /-- `BEGIN TRY … END TRY BEGIN CATCH … END CATCH`. -/
  | tryCatch
  | ifStatement
  /-- What stands between `IF` or `WHILE` and the statement. -/
  | condition
  | elseClause
  | whileStatement
  /-- Tokens that no rule of the grammar takes. -/
  | error
deriving Repr, DecidableEq

namespace Kind

/-- Every kind, in order. -/
def all : List Kind :=
  [.whitespace, .newline, .lineComment, .blockComment, .string, .quotedIdent, .number, .word,
    .semicolon, .leftParen, .rightParen, .comma, .dot, .operator, .unterminatedString,
    .unterminatedIdent, .unterminatedComment, .unknown, .endOfFile, .script, .batch,
    .separator, .statement, .block, .tryCatch, .ifStatement, .condition, .elseClause,
    .whileStatement, .error]

/-- The name a tree is written with. -/
def name : Kind → String
  | .whitespace => "WHITESPACE"
  | .newline => "NEWLINE"
  | .lineComment => "LINE_COMMENT"
  | .blockComment => "BLOCK_COMMENT"
  | .string => "STRING"
  | .quotedIdent => "QUOTED_IDENT"
  | .number => "NUMBER"
  | .word => "WORD"
  | .semicolon => "SEMICOLON"
  | .leftParen => "L_PAREN"
  | .rightParen => "R_PAREN"
  | .comma => "COMMA"
  | .dot => "DOT"
  | .operator => "OPERATOR"
  | .unterminatedString => "UNTERMINATED_STRING"
  | .unterminatedIdent => "UNTERMINATED_IDENT"
  | .unterminatedComment => "UNTERMINATED_COMMENT"
  | .unknown => "UNKNOWN"
  | .endOfFile => "EOF"
  | .script => "SCRIPT"
  | .batch => "BATCH"
  | .separator => "SEPARATOR"
  | .statement => "STATEMENT"
  | .block => "BLOCK"
  | .tryCatch => "TRY_CATCH"
  | .ifStatement => "IF_STMT"
  | .condition => "CONDITION"
  | .elseClause => "ELSE_CLAUSE"
  | .whileStatement => "WHILE_STMT"
  | .error => "ERROR"

/-- The place of a kind in `all`. -/
def index : Kind → Nat
  | .whitespace => 0
  | .newline => 1
  | .lineComment => 2
  | .blockComment => 3
  | .string => 4
  | .quotedIdent => 5
  | .number => 6
  | .word => 7
  | .semicolon => 8
  | .leftParen => 9
  | .rightParen => 10
  | .comma => 11
  | .dot => 12
  | .operator => 13
  | .unterminatedString => 14
  | .unterminatedIdent => 15
  | .unterminatedComment => 16
  | .unknown => 17
  | .endOfFile => 18
  | .script => 19
  | .batch => 20
  | .separator => 21
  | .statement => 22
  | .block => 23
  | .tryCatch => 24
  | .ifStatement => 25
  | .condition => 26
  | .elseClause => 27
  | .whileStatement => 28
  | .error => 29

/-- The kind with this number, if there is one. -/
def ofIndex? (n : Nat) : Option Kind := all[n]?

def ofName? (s : String) : Option Kind := all.find? (·.name == s)

/-- Whether it is a kind of tokens; these come first. -/
def isToken (k : Kind) : Bool := k.index ≤ endOfFile.index

def isNode (k : Kind) : Bool := !k.isToken

/-- The kinds that the grammar never sees. -/
def isTrivia : Kind → Bool
  | .whitespace | .newline | .lineComment | .blockComment | .unterminatedComment => true
  | _ => false

/-- The kinds that become statements of the script. -/
def isStatement : Kind → Bool
  | .statement | .block | .tryCatch | .ifStatement | .whileStatement => true
  | _ => false

theorem ofIndex?_index (k : Kind) : ofIndex? k.index = some k := by
  cases k <;> rfl

theorem ofName?_name (k : Kind) : ofName? k.name = some k := by
  cases k <;> decide

end Kind

end SqlCaret
