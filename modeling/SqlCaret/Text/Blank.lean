import SqlCaret.Text.CodeRanges

/-!
# Text — blanks

The characters with the Unicode property `White_Space`, and the text left when they are taken
off both ends.  The set is larger than `Char.isWhitespace` (`isBlank_of_isWhitespace`): it has
the vertical tab, the form feed, the no-break spaces and the line separators too.
-/

namespace SqlCaret.Blank

/-- The ranges of `White_Space` in order. -/
def ranges : CodeRanges :=
  [(0x09, 0x0D), (0x20, 0x20), (0x85, 0x85), (0xA0, 0xA0), (0x1680, 0x1680),
    (0x2000, 0x200A), (0x2028, 0x2029), (0x202F, 0x202F), (0x205F, 0x205F), (0x3000, 0x3000)]

def isBlank (c : Char) : Bool := ranges.has c

theorem isBlank_of_isWhitespace {c : Char} (h : c.isWhitespace = true) : isBlank c = true := by
  simp only [Char.isWhitespace, Bool.or_eq_true, decide_eq_true_eq] at h
  rcases h with ((h | h) | h) | h <;> subst h <;> decide

/-- A text without the blanks in front. -/
def trimStart (cs : List Char) : List Char := cs.dropWhile isBlank

/-- A text without the blanks at either end. -/
def trim (cs : List Char) : List Char :=
  (trimStart (trimStart cs).reverse).reverse

end SqlCaret.Blank
