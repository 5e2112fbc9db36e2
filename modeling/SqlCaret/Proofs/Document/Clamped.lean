import Mathlib.Order.Bounds.Basic
import SqlCaret.Proofs.Document.Reachable

/-!
# Document — clamped

Bytes and points of a document are more than the places where carets can stand: a byte may lie
inside a character or inside a carriage return with its line feed, and a point past the end of its
line or of the text.  Both conversions move such a place to one where a caret can stand.

* From a byte to its point and back leads to the last caret at or before the byte
  (`Document.isGreatest_offsetOf_pointOf`).  `before text o` is the text in front of that caret, and
  the point of the byte is the point behind it (`Document.pointOf_eq_point`).
* Both conversions keep the order: bytes in order have points in order
  (`Document.pointOf_le_pointOf`), and points in order, from line 1 on, have bytes in order
  (`Document.offsetOf_le_offsetOf`).
-/

namespace SqlCaret

namespace Utf8

theorem slice_eq_nil {m n : Nat} (h : n ≤ m) (cs : List Char) : slice m n cs = [] := by
  rw [slice, Nat.sub_eq_zero_of_le h, takeBytes_zero]

/-- A slice between two boundaries has all that is between them. -/
theorem IsBoundary.exists_slice {text : List Char} {m n : Nat} (hm : IsBoundary text m)
    (hn : IsBoundary text n) (h : m ≤ n) :
    ∃ a b, text = a ++ (slice m n text ++ b) ∧ size a = m ∧ size a + size (slice m n text) = n := by
  obtain ⟨a, x, htext, rfl⟩ := hm
  obtain ⟨c, b, hb, rfl⟩ := hn
  have hprefix := prefix_takeBytes (b := x) h
  rw [← htext, hb, takeBytes_size_append] at hprefix
  obtain ⟨y, rfl⟩ := hprefix
  rw [List.append_assoc] at hb
  have hslice : slice (size a) (size (a ++ y)) text = y := by
    rw [hb, size_append, slice_size_append]
  rw [hslice]
  exact ⟨a, b, hb, rfl, (size_append a y).symm⟩

end Utf8

namespace Line

/-! ### The starts of lines -/

theorem start_le_of_mem_split {start : Nat} {cs : List Char} {l : Line} (h : l ∈ split start cs) :
    start ≤ l.start := by
  induction cs generalizing start l with
  | nil =>
      rw [split, List.mem_singleton] at h
      rw [h]
  | cons c cs ih =>
      by_cases hc : c = '\n'
      · subst hc
        rw [split_newline, List.mem_cons] at h
        rcases h with rfl | h
        · exact Nat.le_refl _
        · exact Nat.le_trans (Nat.le_add_right _ _) (ih h)
      · obtain ⟨ls, hls⟩ := exists_split_eq_cons (start + c.utf8Size) cs
        rw [split_other hc hls, List.mem_cons] at h
        rcases h with rfl | h
        · exact Nat.le_refl _
        · refine Nat.le_trans (Nat.le_add_right start c.utf8Size) (ih ?_)
          rw [hls]
          exact List.mem_cons_of_mem _ h

/-- **Lines end before the next ones start.** -/
theorem pairwise_split (start : Nat) (cs : List Char) :
    (split start cs).Pairwise fun l m => l.start + Utf8.size l.chars < m.start := by
  induction cs generalizing start with
  | nil => exact List.pairwise_singleton _ _
  | cons c cs ih =>
      by_cases hc : c = '\n'
      · subst hc
        rw [split_newline, List.pairwise_cons]
        refine ⟨fun m hm => ?_, ih (start + 1)⟩
        exact Nat.lt_of_succ_le (start_le_of_mem_split hm)
      · obtain ⟨ls, hls⟩ := exists_split_eq_cons (start + c.utf8Size) cs
        have ih := ih (start + c.utf8Size)
        rw [hls, List.pairwise_cons] at ih
        rw [split_other hc hls, List.pairwise_cons]
        refine ⟨fun m hm => ?_, ih.2⟩
        -- the first line has one more character in front
        have hm := ih.1 m hm
        rw [Utf8.size_cons, ← Nat.add_assoc]
        exact hm

theorem stop_lt_start {text : List Char} {i j : Nat} {l m : Line} (hl : (lines text)[i]? = some l)
    (hm : (lines text)[j]? = some m) (h : i < j) : l.start + Utf8.size l.chars < m.start := by
  obtain ⟨hi, rfl⟩ := List.getElem?_eq_some_iff.mp hl
  obtain ⟨hj, rfl⟩ := List.getElem?_eq_some_iff.mp hm
  exact List.pairwise_iff_getElem.mp (pairwise_split 0 text) i j hi hj h

theorem size_take_content_le (l : Line) (n : Nat) :
    Utf8.size (l.content.take n) ≤ Utf8.size l.chars :=
  Utf8.size_le_of_prefix ((List.take_prefix n _).trans (Document.content_prefix_chars l))

end Line

namespace Document

variable {text : List Char} {d : Document} {m n o : Nat} {p q : Point}

theorem IsCaret.le_size (h : IsCaret text o) : o ≤ Utf8.size text := by
  obtain ⟨a, b, rfl, rfl, -⟩ := h
  rw [Utf8.size_append]
  exact Nat.le_add_right _ _

/-! ### The last caret at or before a byte -/

/-- The text in front of the last caret at or before a byte. -/
def before (text : List Char) (o : Nat) : List Char :=
  let a := Utf8.takeBytes o text
  if a.getLast? = some '\r' ∧ (Utf8.dropBytes o text).head? = some '\n' then a.dropLast else a

/-- Either the byte has no carriage return with its line feed around it, or the carriage return is
left out too. -/
theorem before_cases (text : List Char) (o : Nat) :
    (∃ b, text = before text o ++ b ∧ Utf8.takeBytes o text = before text o ∧
      Utf8.takeBytes (o - Utf8.size (before text o)) b = [] ∧
      ¬ ((before text o).getLast? = some '\r' ∧ b.head? = some '\n')) ∨
    ∃ b, text = before text o ++ '\r' :: '\n' :: b ∧
      Utf8.takeBytes o text = before text o ++ ['\r'] := by
  have htext := Utf8.takeBytes_append_dropBytes o text
  have hfits := Utf8.takeBytes_sub_dropBytes o text
  by_cases h : (Utf8.takeBytes o text).getLast? = some '\r' ∧
      (Utf8.dropBytes o text).head? = some '\n'
  · right
    obtain ⟨a, ha⟩ := List.getLast?_eq_some_iff.mp h.1
    obtain ⟨b, hb⟩ := List.head?_eq_some_iff.mp h.2
    have hbefore : before text o = a := by rw [before, if_pos h, ha, List.dropLast_concat]
    refine ⟨b, ?_, by rw [hbefore, ha]⟩
    rw [hbefore, ← htext, ha, hb, List.append_assoc]
    rfl
  · left
    have hbefore : before text o = Utf8.takeBytes o text := if_neg h
    rw [hbefore]
    exact ⟨Utf8.dropBytes o text, htext.symm, rfl, hfits, h⟩

theorem exists_eq_before_append (text : List Char) (o : Nat) : ∃ b, text = before text o ++ b := by
  rcases before_cases text o with ⟨b, htext, -⟩ | ⟨b, htext, -⟩
  · exact ⟨b, htext⟩
  · exact ⟨_, htext⟩

theorem isCaret_before (text : List Char) (o : Nat) : IsCaret text (Utf8.size (before text o)) := by
  rcases before_cases text o with ⟨b, htext, -, -, hcr⟩ | ⟨b, htext, -⟩
  · exact ⟨_, b, htext, rfl, hcr⟩
  · exact ⟨_, _, htext, rfl, by simp⟩

theorem size_before_le (text : List Char) (o : Nat) : Utf8.size (before text o) ≤ o := by
  have hle := Utf8.size_takeBytes_le o text
  rcases before_cases text o with ⟨b, -, htake, -⟩ | ⟨b, -, htake⟩
  · rwa [htake] at hle
  · rw [htake, Utf8.size_append] at hle
    exact Nat.le_trans (Nat.le_add_right _ _) hle

theorem le_size_before (h : IsCaret text n) (hle : n ≤ o) : n ≤ Utf8.size (before text o) := by
  obtain ⟨a, b, htext, rfl, hcr⟩ := h
  have hprefix := Utf8.prefix_takeBytes (b := b) hle
  rw [← htext] at hprefix
  rcases before_cases text o with ⟨-, -, htake, -⟩ | ⟨b', hb', htake⟩
  · rw [htake] at hprefix
    exact Utf8.size_le_of_prefix hprefix
  · rw [htake, List.prefix_concat_iff] at hprefix
    rcases hprefix with rfl | hprefix
    · -- a caret does not stand between the carriage return and the line feed
      have hb := hb'.symm.trans htext
      rw [List.append_assoc] at hb
      obtain rfl : '\n' :: b' = b := (List.cons.inj (List.append_cancel_left hb)).2
      exact absurd ⟨List.getLast?_concat, rfl⟩ hcr
    · exact Utf8.size_le_of_prefix hprefix

/-- **The last caret at or before a byte.** -/
theorem isGreatest_before (text : List Char) (o : Nat) :
    IsGreatest {c | IsCaret text c ∧ c ≤ o} (Utf8.size (before text o)) :=
  ⟨⟨isCaret_before text o, size_before_le text o⟩, fun _ h => le_size_before h.1 h.2⟩

/-! ### From bytes to points -/

/-- Of a line that ends with a carriage return and a line feed the document shows neither. -/
theorem content_crlf (start : Nat) (a b : List Char) :
    Line.content ⟨start, Line.lastLine (a ++ ['\r']) ++ Line.firstLine ('\n' :: b),
      decide ('\n' ∈ '\n' :: b)⟩ = Line.lastLine a := by
  have hlast : Line.lastLine (a ++ ['\r']) = Line.lastLine a ++ ['\r'] := by
    rw [Line.lastLine_concat, if_neg (by decide)]
  have hfirst : Line.firstLine ('\n' :: b) = [] := Line.firstLine_eq_nil_iff.mpr (.inr rfl)
  simp [Line.content, hlast, hfirst]

/-- **The point of a byte** is the point behind the text in front of the last caret. -/
theorem pointOf_eq_after (d : Document) (o : Nat) :
    d.pointOf o = Point.after (before d.text o) := by
  have hle := Utf8.size_takeBytes_le o d.text
  have hsize := Line.size_fullLines_add (Utf8.takeBytes o d.text)
  have htext := Utf8.takeBytes_append_dropBytes o d.text
  simp only [pointOf, Line.locate_lines, Line.column, Point.after]
  -- the byte is at a caret or inside a character, or between a carriage return and its line feed
  rcases before_cases d.text o with ⟨b, hb, htake, hfits, hcr⟩ | ⟨b, hb, htake⟩
  · have hdrop : Utf8.dropBytes o d.text = b :=
      List.append_cancel_left (htake ▸ htext.trans hb)
    rw [htake] at hle hsize
    rw [htake, hdrop]
    obtain ⟨x, hx⟩ := content_eq_append (Utf8.size (Line.fullLines (before d.text o))) hcr
    have hxb : x <+: b := by
      have hprefix := content_prefix_chars ⟨Utf8.size (Line.fullLines (before d.text o)),
        Line.lastLine (before d.text o) ++ Line.firstLine b, decide ('\n' ∈ b)⟩
      rw [hx, List.prefix_append_right_inj] at hprefix
      exact hprefix.trans (List.takeWhile_prefix _)
    rw [hx, show o - Utf8.size (Line.fullLines (before d.text o)) =
        Utf8.size (Line.lastLine (before d.text o)) + (o - Utf8.size (before d.text o)) by omega,
      Utf8.takeBytes_append, Utf8.takeBytes_eq_nil_of_prefix hxb hfits, List.append_nil]
  · have hdrop : Utf8.dropBytes o d.text = '\n' :: b := by
      rw [htake] at htext
      refine List.append_cancel_left (htext.trans (hb.trans ?_))
      rw [List.append_assoc]
      rfl
    have hlast : Line.lastLine (before d.text o ++ ['\r']) =
        Line.lastLine (before d.text o) ++ ['\r'] := by
      rw [Line.lastLine_concat, if_neg (by decide)]
    rw [htake] at hle hsize
    rw [htake, hdrop, content_crlf]
    rw [hlast] at hsize
    simp only [Utf8.size_append] at hle hsize
    obtain ⟨k, hk⟩ : ∃ k, o - Utf8.size (Line.fullLines (before d.text o ++ ['\r'])) =
        Utf8.size (Line.lastLine (before d.text o)) + k := Nat.exists_eq_add_of_le (by omega)
    have hall := Utf8.takeBytes_append (Line.lastLine (before d.text o)) [] k
    rw [List.append_nil, Utf8.takeBytes_nil, List.append_nil] at hall
    rw [hk, hall, List.count_append]
    rfl

theorem pointOf_eq_point (d : Document) (o : Nat) :
    d.pointOf o = (LineIndex.ofText d.text).point (Utf8.size (before d.text o)) := by
  obtain ⟨b, hb⟩ := exists_eq_before_append d.text o
  have hcut : Utf8.takeBytes (Utf8.size (before d.text o)) d.text = before d.text o :=
    (congrArg (Utf8.takeBytes _) hb).trans (Utf8.takeBytes_size_append _ _)
  rw [pointOf_eq_after, LineIndex.point_ofText, hcut]

/-- Bytes in order have points in order. -/
theorem pointOf_le_pointOf (d : Document) (h : m ≤ n) : d.pointOf m ≤ d.pointOf n := by
  rw [pointOf_eq_point, pointOf_eq_point]
  refine LineIndex.point_le_point d.text (le_size_before (isCaret_before d.text m) ?_)
  exact Nat.le_trans (size_before_le d.text m) h

/-! ### From bytes to points and back -/

theorem offsetOf_pointOf_eq (d : Document) (o : Nat) :
    d.offsetOf (d.pointOf o) = Utf8.size (before d.text o) := by
  rw [pointOf_eq_point]
  exact offsetOf_point (isCaret_before d.text o)

/-- **From a byte to its point and back** leads to the last caret at or before the byte. -/
theorem isGreatest_offsetOf_pointOf (d : Document) (o : Nat) :
    IsGreatest {c | IsCaret d.text c ∧ c ≤ o} (d.offsetOf (d.pointOf o)) := by
  rw [offsetOf_pointOf_eq]
  exact isGreatest_before d.text o

theorem offsetOf_pointOf_of_isCaret (h : IsCaret d.text o) : d.offsetOf (d.pointOf o) = o :=
  (isGreatest_offsetOf_pointOf d o).unique ⟨⟨h, Nat.le_refl o⟩, fun _ hc => hc.2⟩

/-- A second time round changes nothing. -/
theorem pointOf_offsetOf_pointOf (d : Document) (o : Nat) :
    d.pointOf (d.offsetOf (d.pointOf o)) = d.pointOf o := by
  rw [offsetOf_pointOf_eq, pointOf_eq (isCaret_before d.text o), ← pointOf_eq_point]

/-! ### From points to bytes -/

/-- Points in order have bytes in order, from line 1 on. -/
theorem offsetOf_le_offsetOf (d : Document) (hp : 1 ≤ p.line) (h : p ≤ q) :
    d.offsetOf p ≤ d.offsetOf q := by
  rw [Point.le_iff] at h
  cases hq : (lines d.text)[q.line - 1]? with
  | none =>
      have hsize : d.offsetOf q = Utf8.size d.text := by rw [offsetOf, hq]; rfl
      rw [hsize]
      exact (isCaret_offsetOf d p).le_size
  | some m =>
      have hlt := (List.getElem?_eq_some_iff.mp hq).1
      have hl := List.getElem?_eq_getElem (show p.line - 1 < (lines d.text).length by omega)
      generalize (lines d.text)[p.line - 1] = l at hl
      simp only [offsetOf, hq, hl]
      rcases h with h | ⟨hline, hoffset⟩
      · -- a line ends before the next ones start
        have hstart := Line.stop_lt_start hl hq (by omega)
        have htake := Line.size_take_content_le l p.offset
        omega
      · rw [hline, hq] at hl
        obtain rfl : m = l := Option.some.inj hl
        exact Nat.add_le_add_left
          (Utf8.size_le_of_prefix (List.take_prefix_take_left hoffset)) m.start

/-! ### The whole of it -/

/-- **Coordinates clamp.**  Points lead to bytes where carets can stand.  A byte leads to its point
and back to the last caret at or before it; so carets are found again, and a second time round
changes nothing.  Bytes in order have points in order, and points in order, from line 1 on, have
bytes in order.  A slice is the text from the byte of the one point to that of the other, nothing if
they stand the other way round. -/
theorem coordinates_clamp (d : Document) :
    (∀ p, IsCaret d.text (d.offsetOf p)) ∧
    (∀ o, IsGreatest {c | IsCaret d.text c ∧ c ≤ o} (d.offsetOf (d.pointOf o))) ∧
    (∀ o, IsCaret d.text o → d.offsetOf (d.pointOf o) = o) ∧
    (∀ o, d.pointOf (d.offsetOf (d.pointOf o)) = d.pointOf o) ∧
    (∀ m n, m ≤ n → d.pointOf m ≤ d.pointOf n) ∧
    (∀ p q : Point, 1 ≤ p.line → p ≤ q → d.offsetOf p ≤ d.offsetOf q) ∧
    ∀ s : Span,
      (d.offsetOf s.start ≤ d.offsetOf s.stop →
        ∃ a b, d.text = a ++ (d.slice s ++ b) ∧ Utf8.size a = d.offsetOf s.start ∧
          Utf8.size a + Utf8.size (d.slice s) = d.offsetOf s.stop) ∧
      (d.offsetOf s.stop ≤ d.offsetOf s.start → d.slice s = []) := by
  refine ⟨isCaret_offsetOf d, isGreatest_offsetOf_pointOf d, fun o => offsetOf_pointOf_of_isCaret,
    pointOf_offsetOf_pointOf d, fun m n => pointOf_le_pointOf d, fun p q => offsetOf_le_offsetOf d,
    fun s => ⟨fun h => ?_, fun h => Utf8.slice_eq_nil h d.text⟩⟩
  have hstart := (isCaret_offsetOf d s.start).isBoundary
  exact hstart.exists_slice (isCaret_offsetOf d s.stop).isBoundary h

/-- Two carriage returns in front of a line feed and a letter of two bytes: the byte between the
second of them and the line feed is moved in front of that carriage return, the byte inside the
letter in front of the letter. -/
theorem coordinates_clamp_crlf :
    let d := ofText ['a', '\r', '\r', '\n', 'ü']
    IsGreatest {c | IsCaret d.text c ∧ c ≤ 3} 2 ∧ IsGreatest {c | IsCaret d.text c ∧ c ≤ 5} 4 ∧
      d.offsetOf ⟨1, 9⟩ ≤ d.offsetOf ⟨2, 0⟩ ∧ d.slice ⟨⟨1, 1⟩, ⟨2, 0⟩⟩ = ['\r', '\r', '\n'] := by
  intro d
  obtain ⟨-, hgreatest, -, -, -, hmono, -⟩ := coordinates_clamp d
  exact ⟨hgreatest 3, hgreatest 5, hmono ⟨1, 9⟩ ⟨2, 0⟩ (by decide) (by decide), by decide⟩

end Document

end SqlCaret
