import SqlCaret.Point
import SqlCaret.Text.Line

/-!
# Line index

The lines of a text, ready to turn byte offsets into points.  Only a line feed ends a line, so
a carriage return before it is the last character of its line and has a point of its own.
-/

namespace SqlCaret

structure LineIndex where
  lines : List Line
deriving Repr

namespace LineIndex

def ofText (text : List Char) : LineIndex := ⟨SqlCaret.lines text⟩

def lineCount (ix : LineIndex) : Nat := ix.lines.length

/-- The point at a byte offset.  Inside a character it is the point before the character, and
past the end it is the end. -/
def point (ix : LineIndex) (offset : Nat) : Point :=
  let r := Line.locate offset ix.lines
  ⟨r.1 + 1, Line.column (offset - r.2.start) r.2.chars⟩

end LineIndex

end SqlCaret
