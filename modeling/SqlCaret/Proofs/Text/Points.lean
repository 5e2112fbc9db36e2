import SqlCaret.Document
import SqlCaret.LineIndex
import SqlCaret.Proofs.Text.Lines

/-!
# Text — points

`Point.after a` is the point a caret reaches behind the text `a`: one line for every line feed,
and then the characters behind the last one.  It only ever moves forward (`after_lt_append`), and
it is what the line index answers for every byte offset (`LineIndex.point_ofText`), so that the
points of a text stand in the order of its bytes (`LineIndex.point_le_point`); two places where
characters meet are in the order of their points (`LineIndex.le_of_point_le`).

A document has fewer places for a caret than a text has cuts: none between a carriage return and
its line feed.  `IsCaret text o` says that there is one at byte `o`.  At such an offset the
document and the line index name the same point (`Document.pointOf_eq`) and the document finds
the offset again (`Document.offsetOf_point`); and every offset that a document answers is such a
place (`Document.isCaret_offsetOf`).
-/

namespace SqlCaret

namespace Point

variable {p q r : Point}

theorem le_refl (p : Point) : p ≤ p := le_iff.mpr (by omega)

theorem le_of_lt (h : p < q) : p ≤ q := by
  rw [lt_iff] at h
  rw [le_iff]
  omega

theorem le_trans (h₁ : p ≤ q) (h₂ : q ≤ r) : p ≤ r := by
  rw [le_iff] at *
  omega

theorem le_antisymm (h₁ : p ≤ q) (h₂ : q ≤ p) : p = q := by
  cases p
  cases q
  simp only [le_iff, mk.injEq] at *
  omega

theorem lt_of_lt_of_le (h₁ : p < q) (h₂ : q ≤ r) : p < r := by
  rw [le_iff] at h₂
  rw [lt_iff] at *
  omega

theorem ne_of_lt (h : p < q) : p ≠ q := by
  rintro rfl
  rw [lt_iff] at h
  omega

theorem not_lt {p q : Point} : ¬ p < q ↔ q ≤ p := by
  rw [lt_iff, le_iff]
  omega

/-- The point behind a text that starts where points start. -/
def after (a : List Char) : Point := ⟨a.count '\n' + 1, (Line.lastLine a).length⟩

/-- One character more moves the caret forward. -/
theorem after_lt_concat (a : List Char) (c : Char) : after a < after (a ++ [c]) := by
  rw [lt_iff]
  simp only [after, Line.lastLine_concat, List.count_append]
  by_cases h : c = '\n'
  · subst h
    simp
  · simp [h, List.count_cons_of_ne h]

/-- More text leads to a later point. -/
theorem after_lt_append (a : List Char) {b : List Char} (hb : b ≠ []) :
    after a < after (a ++ b) := by
  induction b generalizing a with
  | nil => exact absurd rfl hb
  | cons c b ih =>
      rw [List.append_cons]
      have hc := after_lt_concat a c
      cases b with
      | nil => rwa [List.append_nil]
      | cons d b => exact lt_of_lt_of_le hc (le_of_lt (ih (a ++ [c]) (by simp)))

/-- More text in front never moves the caret back. -/
theorem after_le_after {a b : List Char} (h : a <+: b) : after a ≤ after b := by
  obtain ⟨c, rfl⟩ := h
  by_cases hc : c = []
  · rw [hc, List.append_nil]
    exact le_refl _
  · exact le_of_lt (after_lt_append a hc)

end Point

/-- Where no first character fits, none fits in front of a shorter text. -/
theorem Utf8.takeBytes_eq_nil_of_prefix {n : Nat} {a b : List Char} (h : a <+: b)
    (hb : takeBytes n b = []) : takeBytes n a = [] := by
  obtain ⟨x, rfl⟩ := h
  cases a with
  | nil => rfl
  | cons c a =>
      rw [List.cons_append, takeBytes] at hb
      split at hb
      · cases hb
      · rw [takeBytes, if_neg ‹_›]

namespace LineIndex

/-- **The point of an offset** is the point behind the characters that lie before it. -/
theorem point_ofText (text : List Char) (offset : Nat) :
    (ofText text).point offset = Point.after (Utf8.takeBytes offset text) := by
  have hsize := Line.size_fullLines_add (Utf8.takeBytes offset text)
  have hle := Utf8.size_takeBytes_le offset text
  have hnone := Utf8.takeBytes_sub_dropBytes offset text
  simp only [point, ofText, Line.locate_lines, Line.column, Point.after]
  generalize Utf8.takeBytes offset text = a at hsize hle hnone ⊢
  generalize Utf8.dropBytes offset text = b at hnone ⊢
  -- behind the last character before the offset there is no room for another one
  have hfirst : Utf8.takeBytes (offset - Utf8.size a) (Line.firstLine b) = [] :=
    Utf8.takeBytes_eq_nil_of_prefix (List.takeWhile_prefix _) hnone
  rw [show offset - Utf8.size (Line.fullLines a) =
      Utf8.size (Line.lastLine a) + (offset - Utf8.size a) by omega,
    Utf8.takeBytes_append, hfirst, List.append_nil]

/-- The line index answers for a place what stands in front of it. -/
theorem point_size (a b : List Char) :
    (ofText (a ++ b)).point (Utf8.size a) = Point.after a := by
  rw [point_ofText, Utf8.takeBytes_size_append]

/-- Points keep the order of offsets. -/
theorem point_le_point (text : List Char) {m n : Nat} (h : m ≤ n) :
    (ofText text).point m ≤ (ofText text).point n := by
  rw [point_ofText, point_ofText]
  exact Point.after_le_after (Utf8.takeBytes_prefix_takeBytes h text)

/-- Two offsets with a character between them have different points. -/
theorem point_lt_point (a : List Char) {b : List Char} (hb : b ≠ []) (c : List Char) :
    (ofText (a ++ (b ++ c))).point (Utf8.size a) <
      (ofText (a ++ (b ++ c))).point (Utf8.size a + Utf8.size b) := by
  rw [point_size, ← List.append_assoc, ← Utf8.size_append, point_size]
  exact Point.after_lt_append a hb

/-- Where characters meet, points in order have offsets in order. -/
theorem le_of_point_le {text : List Char} {m n : Nat} (hm : Utf8.IsBoundary text m)
    (hn : Utf8.IsBoundary text n) (h : (ofText text).point m ≤ (ofText text).point n) : m ≤ n := by
  obtain ⟨a, b, rfl, rfl⟩ := hm
  obtain ⟨c, d, hcd, rfl⟩ := hn
  rcases List.append_eq_append_iff.mp hcd with ⟨x, rfl, -⟩ | ⟨x, rfl, hd⟩
  · rw [Utf8.size_append]
    exact Nat.le_add_right _ _
  · by_cases hx : x = []
    · exact Nat.le_of_eq (by rw [hx, List.append_nil])
    · rw [List.append_assoc, ← Point.not_lt, Utf8.size_append] at h
      exact absurd (point_lt_point c hx b) h

/-- Places further on have later points. -/
theorem point_lt_point_of_lt {text : List Char} {m n : Nat} (hm : Utf8.IsBoundary text m)
    (hn : Utf8.IsBoundary text n) (h : m < n) : (ofText text).point m < (ofText text).point n :=
  Classical.byContradiction fun hlt =>
    absurd (le_of_point_le hn hm (Point.not_lt.mp hlt)) (Nat.not_le.mpr h)

end LineIndex

namespace Document

/-- Whether a caret can stand at a byte offset: between two characters, and not inside a
carriage return with its line feed. -/
def IsCaret (text : List Char) (offset : Nat) : Prop :=
  ∃ a b, text = a ++ b ∧ Utf8.size a = offset ∧
    ¬ (a.getLast? = some '\r' ∧ b.head? = some '\n')

/-- A caret stands between two characters. -/
theorem IsCaret.isBoundary {text : List Char} {o : Nat} (h : IsCaret text o) :
    Utf8.IsBoundary text o := by
  obtain ⟨a, b, htext, hsize, -⟩ := h
  exact ⟨a, b, htext, hsize⟩

/-- A caret can stand at the end of the text. -/
theorem isCaret_size (text : List Char) : IsCaret text (Utf8.size text) :=
  ⟨text, [], by simp, rfl, by simp⟩

/-- The content of a line is the line up to its end. -/
theorem content_prefix_chars (l : Line) : l.content <+: l.chars := by
  unfold Line.content
  split
  · exact List.dropLast_prefix _
  · exact List.prefix_refl _

/-- What a line shows of the part before a caret is all of it. -/
theorem content_eq_append (start : Nat) {a b : List Char}
    (h : ¬ (a.getLast? = some '\r' ∧ b.head? = some '\n')) :
    ∃ x, Line.content ⟨start, Line.lastLine a ++ Line.firstLine b, decide ('\n' ∈ b)⟩ =
      Line.lastLine a ++ x := by
  simp only [Line.content]
  split
  · rename_i hcr
    simp only [Bool.and_eq_true, decide_eq_true_eq, beq_iff_eq] at hcr
    obtain ⟨hb, hlast⟩ := hcr
    by_cases hf : Line.firstLine b = []
    · -- the carriage return would stand right before the caret, and the line feed behind it
      exfalso
      rcases Line.firstLine_eq_nil_iff.mp hf with rfl | hhead
      · simp at hb
      · refine h ⟨?_, hhead⟩
        rw [hf, List.append_nil] at hlast
        rw [← Line.fullLines_append_lastLine a, List.getLast?_append, hlast]
        rfl
    · exact ⟨_, List.dropLast_append_of_ne_nil hf⟩
  · exact ⟨_, rfl⟩

/-- **At a caret the document and the line index agree.** -/
theorem pointOf_eq {d : Document} {o : Nat} (h : IsCaret d.text o) :
    d.pointOf o = (LineIndex.ofText d.text).point o := by
  obtain ⟨a, b, htext, rfl, hcr⟩ := h
  rw [htext, LineIndex.point_size]
  simp only [pointOf, htext, Line.locate_lines, Utf8.takeBytes_size_append,
    Utf8.dropBytes_size_append, Line.column, Point.after]
  have hsize := Line.size_fullLines_add a
  obtain ⟨x, hx⟩ := content_eq_append (Utf8.size (Line.fullLines a)) hcr
  rw [hx, show Utf8.size a - Utf8.size (Line.fullLines a) = Utf8.size (Line.lastLine a) by omega,
    Utf8.takeBytes_size_append]

/-- **A caret is found again** at the point that the line index names. -/
theorem offsetOf_point {d : Document} {o : Nat} (h : IsCaret d.text o) :
    d.offsetOf ((LineIndex.ofText d.text).point o) = o := by
  obtain ⟨a, b, htext, rfl, hcr⟩ := h
  have hline := Line.getElem?_split 0 a b
  have hsize := Line.size_fullLines_add a
  obtain ⟨x, hx⟩ := content_eq_append (0 + Utf8.size (Line.fullLines a)) hcr
  rw [htext, LineIndex.point_size]
  simp only [offsetOf, htext, Point.after, Nat.add_sub_cancel, lines, hline]
  rw [hx, List.take_left, Nat.zero_add, hsize]

/-- The cuts of a line that its content shows are carets. -/
theorem isCaret_content (a b : List Char) (ha : Line.lastLine a = []) (start n : Nat) :
    IsCaret (a ++ b) (Utf8.size a +
      Utf8.size ((Line.content ⟨start, Line.firstLine b, decide ('\n' ∈ b)⟩).take n)) := by
  obtain ⟨x, hx⟩ : ∃ x, Line.firstLine b =
      (Line.content ⟨start, Line.firstLine b, decide ('\n' ∈ b)⟩).take n ++ x := by
    have h := (List.take_prefix n _).trans
      (content_prefix_chars ⟨start, Line.firstLine b, decide ('\n' ∈ b)⟩)
    exact ⟨_, h.choose_spec.symm⟩
  generalize hs : (Line.content ⟨start, Line.firstLine b, decide ('\n' ∈ b)⟩).take n = s at hx ⊢
  have hb : b = s ++ (x ++ b.dropWhile (· != '\n')) := by
    rw [← List.append_assoc, ← hx]
    exact List.takeWhile_append_dropWhile.symm
  refine ⟨a ++ s, x ++ b.dropWhile (· != '\n'), ?_, Utf8.size_append a s, ?_⟩
  · rw [List.append_assoc, ← hb]
  · rintro ⟨hlast, hhead⟩
    have hn : '\n' ∈ b := by
      rw [hb]
      exact List.mem_append_right _ (List.mem_of_mem_head? hhead)
    -- the line feed is behind the whole line, so the whole line is shown
    have hxnil : x = [] := by
      cases x with
      | nil => rfl
      | cons c x =>
          have hc : c = '\n' := by simpa using hhead
          have hmem : c ∈ Line.firstLine b := by rw [hx]; simp
          exact absurd hc (Line.ne_newline_of_mem_firstLine hmem)
    rw [hxnil, List.append_nil] at hx
    rw [← hx] at hs
    rcases List.eq_nil_or_concat s with rfl | ⟨s', c, rfl⟩
    · rw [List.append_nil] at hlast
      exact Line.getLast?_ne_of_lastLine_eq_nil ha (by decide) hlast
    · have hc : c = '\r' := by simpa using hlast
      subst hc
      have hcut := congrArg List.length hs
      rw [hx] at hcut
      simp [Line.content, hn] at hcut
      omega

/-- **A document only answers carets.** -/
theorem isCaret_offsetOf (d : Document) (p : Point) : IsCaret d.text (d.offsetOf p) := by
  unfold offsetOf
  split
  · rename_i l hl
    obtain ⟨a, b, htext, ha, rfl⟩ := Line.exists_cut_of_getElem?_split hl
    rw [htext, Nat.zero_add]
    exact isCaret_content a b ha _ _
  · exact isCaret_size d.text

end Document

end SqlCaret
