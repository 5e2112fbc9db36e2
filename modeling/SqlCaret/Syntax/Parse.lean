import SqlCaret.Syntax.Outline.Script
import SqlCaret.Syntax.Recorder
import SqlCaret.Syntax.Token.Scan
import SqlCaret.Syntax.Tree.OfEvents

/-!
# Syntax — parse

From a text to its syntax tree and its errors.  The tokens give marks, the marks an outline,
the outline events, and the events with all tokens the tree.  Problems become errors at bytes;
those of the grammar come before those of the tokens, and then all are put in order of their
offset, equal offsets in the order they had.
-/

namespace SqlCaret

/-- The separator when none is given. -/
def defaultSeparator : List Char := ['G', 'O']

structure Parse where
  tree : SyntaxTree
  errors : List SyntaxError

namespace SyntaxError

/-- The error that a problem of the grammar is. -/
def ofProblem (ts : List Token) (p : Problem) : SyntaxError := ⟨p.fault, Token.offsetAt ts p.index⟩

/-- The fault of a token that the text ends inside. -/
def faultOf? : Kind → Option SyntaxFault
  | .unterminatedString => some .unterminatedString
  | .unterminatedIdent => some .unterminatedIdent
  | .unterminatedComment => some .unterminatedComment
  | _ => none

/-- The errors of the tokens themselves. -/
def ofTokens (ts : List Token) : List SyntaxError :=
  ts.filterMap fun t => (faultOf? t.kind).map (⟨·, t.offset⟩)

/-- In order of offset. -/
def sort (es : List SyntaxError) : List SyntaxError :=
  es.mergeSort fun a b => a.offset ≤ b.offset

end SyntaxError

namespace Parse

/-- A recorder in front of a text's tokens, with `separator` between the batches. -/
def recorder (separator : List Char) (ts : List Token) : Recorder :=
  Recorder.ofMarks (Mark.ofLexemes separator (ts.map Token.toLexeme))

/-- Records the script ahead of a recorder, after what it has recorded already.  The answer is
the tree and the problems of the grammar in the order they were met. -/
def record (ts : List Token) (r : Recorder) : Option (SyntaxTree × List Problem) :=
  let script := Outline.script r.cursor
  (r.tell script.value).bind fun r =>
    (Tree.ofEvents? (ts.map Token.toLexeme) r.events.toList).map
      (·, r.problems ++ script.problems)

/-- The parse of a text that `separator` lines cut into batches. -/
def ofText (text : List Char) (separator : List Char) : Parse :=
  let ts := tokenize text
  match record ts (recorder separator ts) with
  | some (tree, problems) =>
    ⟨tree, SyntaxError.sort (problems.map (SyntaxError.ofProblem ts) ++ SyntaxError.ofTokens ts)⟩
  | none => ⟨.node .script [], []⟩

end Parse

end SqlCaret
