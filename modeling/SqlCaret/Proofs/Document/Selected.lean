import SqlCaret.Proofs.Document.Clamped
import SqlCaret.Proofs.Document.Edited

/-!
# Document — selected

What is selected in a document can be told by its bytes and by the points it hands out, and both
tell the same (`Document.selection_told_by_points`): the selection is empty by its points just if no
text is selected, the slice between its points is the selected text, and selecting between its
points changes nothing.  That is so because both ends stand where carets can, however the document
was loaded (`Document.Loaded`) and edited since; there no two bytes have the same point
(`Document.pointOf_inj`).

The statement also says what a document answers to an edit from or to line 0
(`Document.perform_line_zero`).
-/

namespace SqlCaret.Document

/-- The documents that loading gives. -/
inductive Loaded : Document → Prop where
  | ofText (text : List Char) : Loaded (ofText text)
  | ofBytes {bytes : List UInt8} {d : Document} (h : ofBytes bytes = .ok d) : Loaded d

variable {text : List Char} {d d₀ : Document} {m n : Nat}

/-- A document that is loaded has its caret at the start. -/
theorem Loaded.eq_ofText (h : Loaded d) : d = Document.ofText d.text := by
  cases h with
  | ofText text => rfl
  | @ofBytes bytes _ h =>
      rw [Document.ofBytes] at h
      cases hdecode : Utf8.decode bytes with
      | error e =>
          rw [hdecode] at h
          cases h
      | ok text =>
          rw [hdecode] at h
          cases h
          rfl

/-! ### Where carets stand -/

theorem IsCaret.min (hm : IsCaret text m) (hn : IsCaret text n) : IsCaret text (min m n) := by
  rw [Nat.min_def]
  split <;> assumption

theorem IsCaret.max (hm : IsCaret text m) (hn : IsCaret text n) : IsCaret text (max m n) := by
  rw [Nat.max_def]
  split <;> assumption

/-- The points of a document are in the order of its caret positions. -/
theorem pointOf_le_iff (hm : IsCaret d.text m) (hn : IsCaret d.text n) :
    d.pointOf m ≤ d.pointOf n ↔ m ≤ n := by
  refine ⟨fun h => ?_, pointOf_le_pointOf d⟩
  rw [pointOf_eq hm, pointOf_eq hn] at h
  exact le_of_point_le hm hn h

/-- Carets have points of their own. -/
theorem pointOf_inj (hm : IsCaret d.text m) (hn : IsCaret d.text n) :
    d.pointOf m = d.pointOf n ↔ m = n := by
  refine ⟨fun h => ?_, fun h => by rw [h]⟩
  rw [← offsetOf_pointOf hm rfl, h, offsetOf_pointOf hn rfl]

/-- The earlier point of a selection is that of its earlier end. -/
theorem offsetOf_min (hm : IsCaret d.text m) (hn : IsCaret d.text n) :
    d.offsetOf ((d.pointOf m).min (d.pointOf n)) = min m n := by
  simp only [Point.min, pointOf_le_iff hm hn]
  split
  · rw [offsetOf_pointOf hm rfl, Nat.min_eq_left ‹_›]
  · rw [offsetOf_pointOf hn rfl, Nat.min_eq_right (by omega)]

theorem offsetOf_max (hm : IsCaret d.text m) (hn : IsCaret d.text n) :
    d.offsetOf ((d.pointOf m).max (d.pointOf n)) = max m n := by
  simp only [Point.max, pointOf_le_iff hm hn]
  split
  · rw [offsetOf_pointOf hn rfl, Nat.max_eq_right ‹_›]
  · rw [offsetOf_pointOf hm rfl, Nat.max_eq_left (by omega)]

section
variable (hanchor : IsCaret d.text d.anchor) (hactive : IsCaret d.text d.active)
include hanchor hactive

/-- **What is selected is what the points of the selection cut out.** -/
theorem slice_selection : d.slice d.selection.span = d.selectedText := by
  rw [slice, selectedText]
  simp only [selection, Selection.span, offsetOf_min hanchor hactive, offsetOf_max hanchor hactive]

/-- Nothing is selected just if both ends are at one place. -/
theorem selectedText_eq_nil_iff : d.selectedText = [] ↔ d.anchor = d.active := by
  constructor
  · intro h
    obtain ⟨a, b, -, hstart, hstop⟩ := (hanchor.min hactive).isBoundary.exists_slice
      (hanchor.max hactive).isBoundary (by omega)
    rw [selectedText] at h
    rw [h, Utf8.size_nil] at hstop
    omega
  · intro h
    rw [selectedText, h, Nat.min_self, Nat.max_self]
    exact Utf8.slice_eq_nil (Nat.le_refl _) d.text

/-- The selection shows by its points whether something is selected. -/
theorem isEmpty_selection_iff : d.selection.isEmpty = true ↔ d.selectedText = [] := by
  rw [selectedText_eq_nil_iff hanchor hactive, Selection.isEmpty, beq_iff_eq]
  exact pointOf_inj hanchor hactive

end

/-- **The selection is what its points say**, in every document that was loaded and edited in any
way.  Its ends stand where carets can.  Selecting between its points is not refused and changes
nothing, and the slice between them is the selected text; they are equal just if no text is
selected, and then an execute command runs the whole text, else the selected text.  An edit from or
to line 0 is refused and changes nothing. -/
theorem selection_told_by_points (h : Loaded d₀) (es : List Edit) :
    let d := d₀.edits es
    d.text = d₀.text ∧ IsCaret d.text d.anchor ∧ IsCaret d.text d.active ∧
      host.select d.selection d = (.ok (), d) ∧
      d.slice d.selection.span = d.selectedText ∧
      (d.selection.isEmpty = true ↔ d.selectedText = []) ∧
      d.executionText = (if d.selectedText = [] then d.text else d.selectedText) ∧
      ∀ e s, Edit.asked? e = some s → s.anchor.line = 0 ∨ s.active.line = 0 →
        d.perform e = (.error (.selection s "lines are numbered from 1"), d) := by
  intro d
  have hreach : Reachable d₀.text d := by
    have hd : d = (ofText d₀.text).edits es := by rw [← h.eq_ofText]
    rw [hd]
    exact reachable_edits d₀.text es
  obtain ⟨htext, hanchor, hactive⟩ := hreach.isCaret
  rw [← htext] at hanchor hactive
  have hempty := isEmpty_selection_iff hanchor hactive
  refine ⟨htext, hanchor, hactive, hreach.select_back rfl, slice_selection hanchor hactive, hempty,
    ?_, fun e s => perform_line_zero⟩
  show (if d.selection.isEmpty = true then d.text else d.selectedText) = _
  simp only [hempty]

/-- Selecting from past the end back into the first line, and then from line 0, which is refused. -/
theorem selection_told_by_points_crlf :
    let d₀ := ofText ['a', 'ü', '\r', '\n', 'b']
    let d := d₀.edits [.setCaret ⟨0, 7⟩, .select ⟨9, 9⟩ ⟨1, 1⟩, .setSelection ⟨⟨0, 0⟩, ⟨1, 1⟩⟩]
    Document.ofBytes [97, 195, 188, 13, 10, 98] = .ok d₀ ∧ d.anchor = 6 ∧ d.active = 1 ∧
      d.slice d.selection.span = ['ü', '\r', '\n', 'b'] ∧ d.executionText = d.selectedText := by
  intro d₀ d
  have hbytes : Document.ofBytes [97, 195, 188, 13, 10, 98] = .ok d₀ := by decide
  obtain ⟨-, -, -, -, hslice, -, hexecution, -⟩ := selection_told_by_points (.ofBytes hbytes)
    [.setCaret ⟨0, 7⟩, .select ⟨9, 9⟩ ⟨1, 1⟩, .setSelection ⟨⟨0, 0⟩, ⟨1, 1⟩⟩]
  exact ⟨hbytes, by decide, by decide, hslice.trans (by decide),
    hexecution.trans (if_neg (by decide))⟩

end SqlCaret.Document
