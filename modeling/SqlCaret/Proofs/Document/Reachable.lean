import SqlCaret.Proofs.Text.Points

/-!
# Document — reachable

The documents that an editor can have: a text as it was loaded, and after that any carets set
and any stretches selected.  Both ends of their selection stand where carets can
(`Document.Reachable.isCaret`), and there the order of points is the order of offsets
(`Document.le_of_point_le`).
-/

namespace SqlCaret.Document

/-- The document comes from loading the text and moving the selection. -/
inductive Reachable (text : List Char) : Document → Prop where
  | ofText : Reachable text (ofText text)
  | setCaret {d : Document} (h : Reachable text d) (p : Point) : Reachable text (d.setCaret p)
  | select {d d' : Document} {anchor active : Point} (h : Reachable text d)
      (hs : d.select? anchor active = some d') : Reachable text d'

theorem isCaret_zero (text : List Char) : IsCaret text 0 := ⟨[], text, rfl, rfl, by simp⟩

/-- A selection is made of offsets of points. -/
theorem select?_eq_some {d d' : Document} {anchor active : Point}
    (h : d.select? anchor active = some d') :
    d' = { d with anchor := d.offsetOf anchor, active := d.offsetOf active } := by
  rw [select?] at h
  split at h
  · cases h
  · cases h
    rfl

/-- **Carets stay where carets can stand**, and the text stays as it was. -/
theorem Reachable.isCaret {text : List Char} {d : Document} (h : Reachable text d) :
    d.text = text ∧ IsCaret text d.anchor ∧ IsCaret text d.active := by
  induction h with
  | ofText => exact ⟨rfl, isCaret_zero text, isCaret_zero text⟩
  | @setCaret d _ p ih =>
      obtain ⟨rfl, -, -⟩ := ih
      exact ⟨rfl, isCaret_offsetOf d p, isCaret_offsetOf d p⟩
  | @select d d' anchor active _ hs ih =>
      obtain ⟨rfl, -, -⟩ := ih
      rw [select?_eq_some hs]
      exact ⟨rfl, isCaret_offsetOf d anchor, isCaret_offsetOf d active⟩

/-- Where carets can stand, points in order have offsets in order. -/
theorem le_of_point_le {text : List Char} {m n : Nat} (hm : IsCaret text m)
    (hn : IsCaret text n)
    (h : (LineIndex.ofText text).point m ≤ (LineIndex.ofText text).point n) : m ≤ n :=
  LineIndex.le_of_point_le hm.isBoundary hn.isBoundary h

end SqlCaret.Document
