/-!
# Point

A place in a text as an editor reports it: lines count from one, and the offset counts the
characters before the caret on its line.  Points are ordered line by line and along a line
(`Point.le_iff`).
-/

namespace SqlCaret

structure Point where
  line : Nat
  offset : Nat
deriving Repr, DecidableEq

namespace Point

/-- `a` comes strictly before `b`. -/
def lt (a b : Point) : Bool :=
  a.line < b.line || (a.line == b.line && a.offset < b.offset)

/-- `a` comes no later than `b`. -/
def le (a b : Point) : Bool := !lt b a

instance : LT Point := ⟨fun a b => lt a b = true⟩
instance : LE Point := ⟨fun a b => le a b = true⟩
instance (a b : Point) : Decidable (a < b) := inferInstanceAs (Decidable (lt a b = true))
instance (a b : Point) : Decidable (a ≤ b) := inferInstanceAs (Decidable (le a b = true))

/-- The order of lines, and on one line the order of offsets. -/
theorem lt_iff {a b : Point} :
    a < b ↔ a.line < b.line ∨ a.line = b.line ∧ a.offset < b.offset := by
  show lt a b = true ↔ _
  simp [lt]

theorem le_iff {a b : Point} :
    a ≤ b ↔ a.line < b.line ∨ a.line = b.line ∧ a.offset ≤ b.offset := by
  show le a b = true ↔ _
  simp only [le, lt, Bool.not_eq_true', Bool.or_eq_false_iff, Bool.and_eq_false_iff,
    decide_eq_false_iff_not, beq_eq_false_iff_ne]
  omega

/-- Points in one order, as the two comparisons tell. -/
protected def compare (a b : Point) : Ordering :=
  if a < b then .lt else if a = b then .eq else .gt

/-- The earlier of two points. -/
protected def min (a b : Point) : Point := if a ≤ b then a else b

/-- The later of two points. -/
protected def max (a b : Point) : Point := if a ≤ b then b else a

/-- The written form, such as `3:14`. -/
def text (p : Point) : String := toString p.line ++ ":" ++ toString p.offset

end Point

end SqlCaret
