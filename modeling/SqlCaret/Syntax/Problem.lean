/-!
# Syntax — problems

What can be wrong with a script, and the wording of each fault.  A `Problem` places its fault
at a token, by how many significant tokens come before; a `SyntaxError` places it at a byte.
-/

namespace SqlCaret

/-- The statements that need a condition or a statement after their keyword. -/
inductive Owner where
  | ifClause | elseClause | whileClause
deriving Repr, DecidableEq

def Owner.keyword : Owner → String
  | .ifClause => "IF"
  | .elseClause => "ELSE"
  | .whileClause => "WHILE"

inductive SyntaxFault where
  | unterminatedString
  | unterminatedIdent
  | unterminatedComment
  /-- An `END` that closes nothing. -/
  | endAlone
  /-- An `ELSE` that no `IF` takes. -/
  | elseAlone
  /-- A `)` that closes nothing. -/
  | parenAlone
  /-- A `(` that nothing closes. -/
  | parenOpen
  /-- A `BEGIN` that nothing closes. -/
  | beginOpen
  /-- A `BEGIN TRY` that nothing closes. -/
  | tryOpen
  /-- A `BEGIN CATCH` that nothing closes. -/
  | catchOpen
  /-- A closed try section with no catch section after it. -/
  | tryAlone
  /-- A catch section with no try section before it. -/
  | catchAlone
  | noStatement (owner : Owner)
  | noCondition (owner : Owner)
  /-- Any other fault, in words of its own. -/
  | other (message : String)
deriving Repr, DecidableEq

def SyntaxFault.message : SyntaxFault → String
  | .unterminatedString => "unterminated string literal"
  | .unterminatedIdent => "unterminated quoted identifier"
  | .unterminatedComment => "unterminated block comment"
  | .endAlone => "END without matching BEGIN"
  | .elseAlone => "ELSE without matching IF"
  | .parenAlone => "unbalanced parentheses: unexpected ')'"
  | .parenOpen => "unbalanced parentheses: missing ')'"
  | .beginOpen => "BEGIN without matching END"
  | .tryOpen => "BEGIN TRY without matching END TRY"
  | .catchOpen => "BEGIN CATCH without matching END CATCH"
  | .tryAlone => "END TRY must be followed by BEGIN CATCH"
  | .catchAlone => "BEGIN CATCH without BEGIN TRY"
  | .noStatement owner => owner.keyword ++ " without a statement"
  | .noCondition owner => owner.keyword ++ " without a condition"
  | .other message => message

/-- A fault at a token. -/
structure Problem where
  fault : SyntaxFault
  /-- How many significant tokens come before the token at fault. -/
  index : Nat
deriving Repr, DecidableEq

/-- A fault at a byte offset. -/
structure SyntaxError where
  fault : SyntaxFault
  offset : Nat
deriving Repr, DecidableEq

namespace SyntaxError

def message (e : SyntaxError) : String := e.fault.message

/-- The written form, with the offset. -/
def text (e : SyntaxError) : String :=
  e.message ++ " (byte " ++ toString e.offset ++ ")"

end SyntaxError

end SqlCaret
