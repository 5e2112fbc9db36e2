import SqlCaret.Point

/-!
# Span

A stretch of text between two points.  Both ends count as inside (`Span.contains_iff`): a
caret right before the first character or right after the last one still belongs to it.  Spans
that only touch do not overlap.

`Span.between` builds a span from two points in order and refuses them inverted; a span that
is written down directly may run backwards, and every operation has a meaning there too.
-/

namespace SqlCaret

structure Span where
  start : Point
  stop : Point
deriving Repr, DecidableEq

namespace Span

/-- Two points that make no span, since the first comes after the second. -/
structure Inverted where
  start : Point
  stop : Point
deriving Repr, DecidableEq

def Inverted.message (e : Inverted) : String :=
  "range start " ++ e.start.text ++ " is after its end " ++ e.stop.text

/-- The span between two points in order. -/
def between (start stop : Point) : Except Inverted Span :=
  if stop < start then .error ⟨start, stop⟩ else .ok ⟨start, stop⟩

/-- Whether a caret at `p` is inside. -/
def contains (s : Span) (p : Point) : Bool :=
  if p.line < s.start.line || p.line > s.stop.line then false
  else
    let beforeFirst := p.line == s.start.line && p.offset < s.start.offset
    let afterLast := p.line == s.stop.line && p.offset > s.stop.offset
    !(beforeFirst || afterLast)

theorem contains_iff {s : Span} {p : Point} :
    s.contains p = true ↔ s.start ≤ p ∧ p ≤ s.stop := by
  simp only [contains, Point.le_iff]
  split
  · rename_i h
    simp only [Bool.or_eq_true, decide_eq_true_eq] at h
    simp only [Bool.false_eq_true, false_iff]
    omega
  · rename_i h
    simp only [Bool.or_eq_true, decide_eq_true_eq, gt_iff_lt, not_or] at h
    simp only [Bool.not_eq_true', Bool.or_eq_false_iff, Bool.and_eq_false_iff,
      beq_eq_false_iff_ne, decide_eq_false_iff_not, gt_iff_lt]
    omega

/-- Whether all of `other` lies inside. -/
def containsSpan (s other : Span) : Bool :=
  decide (s.start ≤ other.start) && decide (other.stop ≤ s.stop)

/-- Whether the two share a character. -/
def overlaps (s other : Span) : Bool :=
  decide (s.start < other.stop) && decide (other.start < s.stop)

def isEmpty (s : Span) : Bool := s.start == s.stop

/-- The written form, such as `1:0-3:14`. -/
def text (s : Span) : String := s.start.text ++ "-" ++ s.stop.text

end Span

end SqlCaret
