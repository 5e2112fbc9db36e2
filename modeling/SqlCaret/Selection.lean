import SqlCaret.Span

/-!
# Selection

What an editor has selected: the anchor, where the selection began, and the active point,
where the caret is.  The active point may come first.
-/

namespace SqlCaret

structure Selection where
  anchor : Point
  active : Point
deriving Repr, DecidableEq

namespace Selection

/-- Nothing selected, the caret at `p`. -/
def caret (p : Point) : Selection := ⟨p, p⟩

def isEmpty (s : Selection) : Bool := s.anchor == s.active

/-- The text covered, whichever way it was selected. -/
def span (s : Selection) : Span := ⟨s.anchor.min s.active, s.anchor.max s.active⟩

/-- The written form, such as `1:0..3:14`. -/
def text (s : Selection) : String := s.anchor.text ++ ".." ++ s.active.text

end Selection

end SqlCaret
