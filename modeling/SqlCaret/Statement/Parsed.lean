import SqlCaret.Statement.OfTree
import SqlCaret.Syntax.Parse

/-!
# Statement — parsed scripts

What a reader of scripts makes of a text: the script, as far as it could be read, and the
errors with the points they are at.  `ParsedScript.ofText` reads T-SQL.
-/

namespace SqlCaret

structure ScriptError where
  message : String
  point : Point
deriving Repr, DecidableEq

/-- The written form, with the point in front. -/
def ScriptError.text (e : ScriptError) : String := e.point.text ++ ": " ++ e.message

structure ParsedScript where
  script : Script
  errors : List ScriptError
deriving Repr

namespace ParsedScript

def isOk (p : ParsedScript) : Bool := p.errors.isEmpty

/-- The written form: how many batches, or else all errors. -/
def text (p : ParsedScript) : String :=
  if p.isOk then toString p.script.batches.length ++ " batches, no errors"
  else
    p.errors.foldl (fun s e => s ++ "\n  " ++ e.text) (toString p.errors.length ++ " errors")

/-- A text whose batches end at `separator` lines. -/
def ofText (text : List Char) (separator : List Char) : ParsedScript :=
  let parse := Parse.ofText text separator
  let ix := LineIndex.ofText text
  ⟨Script.ofTree ix parse.tree, parse.errors.map fun e => ⟨e.message, ix.point e.offset⟩⟩

end ParsedScript

end SqlCaret
