import SqlCaret.Proofs.Text.Points

/-!
# Text — full lines in front

The points of a text that has other text in front of it or behind it.  What stands behind a byte
does not matter to its point (`LineIndex.point_append`).  Full lines in front of a text move its
points down by as many lines and leave their columns (`LineIndex.point_behind`), and all points
before the end of those lines are on them (`LineIndex.line_le`).
-/

namespace SqlCaret

namespace Utf8

/-- The beginning of a text does not depend on what stands behind it. -/
theorem takeBytes_append_of_le {n : Nat} {a : List Char} (h : n ≤ size a) (b : List Char) :
    takeBytes n (a ++ b) = takeBytes n a := by
  induction a generalizing n with
  | nil =>
      obtain rfl : n = 0 := Nat.le_zero.mp h
      simp
  | cons c a ih =>
      rw [size_cons] at h
      simp only [List.cons_append, takeBytes]
      split
      · rw [ih (by omega)]
      · rfl

theorem takeBytes_prefix (n : Nat) (cs : List Char) : takeBytes n cs <+: cs :=
  ⟨dropBytes n cs, takeBytes_append_dropBytes n cs⟩

end Utf8

namespace Line

/-- Behind a line end the last line is that of the text there. -/
theorem lastLine_append_of_eq_nil {a : List Char} (h : lastLine a = []) (b : List Char) :
    lastLine (a ++ b) = lastLine b := by
  induction a with
  | nil => rfl
  | cons c a ih =>
      rw [lastLine] at h
      split at h
      · rename_i hmem
        rw [List.cons_append, lastLine,
          if_pos (by rw [← List.cons_append]; exact List.mem_append_left b hmem), ih h]
      · cases h

end Line

namespace Point

/-- `k` lines further down. -/
def down (k : Nat) (p : Point) : Point := ⟨p.line + k, p.offset⟩

/-- Behind full lines a text starts at the beginning of a line. -/
theorem after_append_of_lastLine_eq_nil {a : List Char} (h : Line.lastLine a = [])
    (b : List Char) : after (a ++ b) = (after b).down (a.count '\n') := by
  simp only [after, down, Line.lastLine_append_of_eq_nil h, List.count_append, Point.mk.injEq,
    and_true]
  omega

end Point

namespace LineIndex

/-- The points of a text stay when a text is put behind it. -/
theorem point_append {a : List Char} {o : Nat} (h : o ≤ Utf8.size a) (b : List Char) :
    (ofText (a ++ b)).point o = (ofText a).point o := by
  rw [point_ofText, point_ofText, Utf8.takeBytes_append_of_le h]

/-- Behind a line end the points are those of the text there, so many lines down. -/
theorem point_behind {a : List Char} (h : Line.lastLine a = []) (b : List Char) (o : Nat) :
    (ofText (a ++ b)).point (Utf8.size a + o) = ((ofText b).point o).down (a.count '\n') := by
  rw [point_ofText, point_ofText, Utf8.takeBytes_append, Point.after_append_of_lastLine_eq_nil h]

theorem line_pos (text : List Char) (o : Nat) : 0 < ((ofText text).point o).line := by
  rw [point_ofText, Point.after]
  exact Nat.succ_pos _

/-- The end of the last full line is on it. -/
theorem line_le (a : List Char) {o : Nat} (h : o < Utf8.size (a ++ ['\n'])) :
    ((ofText (a ++ ['\n'])).point o).line ≤ (a ++ ['\n']).count '\n' := by
  have ho : o ≤ Utf8.size a := by
    have hn : ('\n' : Char).utf8Size = 1 := by decide
    rw [Utf8.size_append, Utf8.size_cons, Utf8.size_nil, hn] at h
    omega
  rw [point_append ho, point_ofText, Point.after, List.count_append, List.count_singleton_self]
  exact Nat.succ_le_succ ((Utf8.takeBytes_prefix o a).sublist.count_le _)

end LineIndex

end SqlCaret
