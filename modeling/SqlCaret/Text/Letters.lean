/-!
# Text — letter case

Keywords, separators and scope names are compared with the case of the letters `a` to `z`
ignored and every other character taken as it is.  Two texts are the same word when their
folded forms are equal.
-/

namespace SqlCaret.Letters

/-- A text with the letters `a` to `z` raised. -/
def fold (cs : List Char) : List Char := cs.map Char.toUpper

/-- Whether two texts are the same word. -/
def same (a b : List Char) : Bool := fold a == fold b

@[simp] theorem length_fold (cs : List Char) : (fold cs).length = cs.length := by
  simp [fold]

theorem same_iff {a b : List Char} : same a b = true ↔ fold a = fold b := by
  simp [same]

end SqlCaret.Letters
