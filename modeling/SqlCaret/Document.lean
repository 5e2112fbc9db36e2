import SqlCaret.Selection
import SqlCaret.Text.Line

/-!
# Document

The text of an editor and what is selected in it.  The text is kept as it was loaded.  The
selection is kept as two byte offsets and handed out as points.

A point that no caret can have is moved to one that a caret can: past the last line to the end
of the text, past the end of a line to that end, in front of the line ending.  Here a line
ending is a line feed or a carriage return and a line feed; there is no point between the two.
Line 0 is taken for line 1, but nothing can be selected there.
-/

namespace SqlCaret

structure Document where
  text : List Char
  /-- Byte offset where the selection began. -/
  anchor : Nat
  /-- Byte offset of the caret. -/
  active : Nat
deriving Repr, DecidableEq

namespace Document

/-- A text with the caret at its start. -/
def ofText (text : List Char) : Document := ⟨text, 0, 0⟩

def ofBytes (bytes : List UInt8) : Except Utf8.Fault Document :=
  (Utf8.decode bytes).map ofText

def bytes (d : Document) : List UInt8 := Utf8.encode d.text

/-- The number of bytes. -/
def size (d : Document) : Nat := Utf8.size d.text

def isEmpty (d : Document) : Bool := d.text.isEmpty

def lineCount (d : Document) : Nat := (lines d.text).length

/-- The characters of a line without its ending; lines count from one. -/
def line? (d : Document) (number : Nat) : Option (List Char) :=
  if number = 0 then none else ((lines d.text)[number - 1]?).map Line.content

/-- The byte offset of a point. -/
def offsetOf (d : Document) (p : Point) : Nat :=
  match (lines d.text)[p.line - 1]? with
  | some l => l.start + Utf8.size (l.content.take p.offset)
  | none => d.size

/-- The point of a byte offset.  Inside a character, or between the two characters of a line
ending, it is the point before. -/
def pointOf (d : Document) (offset : Nat) : Point :=
  let r := Line.locate offset (lines d.text)
  ⟨r.1 + 1, Line.column (offset - r.2.start) r.2.content⟩

/-- The text of a span; empty when the span runs backwards. -/
def slice (d : Document) (s : Span) : List Char :=
  Utf8.slice (d.offsetOf s.start) (d.offsetOf s.stop) d.text

/-- With nothing selected and the caret at `p`. -/
def setCaret (d : Document) (p : Point) : Document :=
  { d with anchor := d.offsetOf p, active := d.offsetOf p }

def selection (d : Document) : Selection := ⟨d.pointOf d.anchor, d.pointOf d.active⟩

/-- With the text between two points selected; nothing is selected from or to line 0. -/
def select? (d : Document) (anchor active : Point) : Option Document :=
  if anchor.line = 0 ∨ active.line = 0 then none
  else some { d with anchor := d.offsetOf anchor, active := d.offsetOf active }

def selectedText (d : Document) : List Char :=
  Utf8.slice (min d.anchor d.active) (max d.anchor d.active) d.text

end Document

end SqlCaret
