import SqlCaret.Proofs.Document.Reachable
import SqlCaret.Session.Host

/-!
# Document — edited

A document as its editor uses it.  An edit sets the caret or asks for a selection, which is refused
from or to line 0 (`Document.perform_line_zero`).  An edit that is refused changes nothing; so a
document that is loaded and then edited in any way is a reachable one (`Document.reachable_edits`).

**Selecting what was selected** gives a reachable document back, anchor and caret to the byte,
whatever has been selected in between (`Document.Reachable.select_back`).
-/

namespace SqlCaret.Document

/-- One way to move the selection. -/
inductive Edit where
  | setCaret (p : Point)
  | select (anchor active : Point)
  /-- Selects a span, with the caret at its end. -/
  | setSelection (span : Span)
deriving Repr, DecidableEq

/-- The selection that an edit asks for; to set the caret is no request, it is never refused. -/
def Edit.asked? : Edit → Option Selection
  | .setCaret _ => none
  | .select anchor active => some ⟨anchor, active⟩
  | .setSelection span => some ⟨span.start, span.stop⟩

/-- What a document answers to an edit, and the document after it. -/
def perform (d : Document) : Edit → Except HostFault Unit × Document
  | .setCaret p => (.ok (), d.setCaret p)
  | .select anchor active => host.select ⟨anchor, active⟩ d
  | .setSelection span => host.select ⟨span.start, span.stop⟩ d

/-- The document after an edit, which may have been refused. -/
def edit (d : Document) (e : Edit) : Document := (d.perform e).2

/-- The document after edits, one after the other. -/
def edits (d : Document) (es : List Edit) : Document := es.foldl edit d

variable {text : List Char} {d d' : Document} {s : Selection} {e : HostFault}

theorem perform_of_asked {e : Edit} (h : e.asked? = some s) : d.perform e = host.select s d := by
  cases e with
  | setCaret p => cases h
  | select anchor active => rw [perform, Option.some.inj h]
  | setSelection span => rw [perform, Option.some.inj h]

/-- **Nothing is selected from or to line 0**, and the document is told so and stays as it is. -/
theorem perform_line_zero {e : Edit} (h : e.asked? = some s)
    (hzero : s.anchor.line = 0 ∨ s.active.line = 0) :
    d.perform e = (.error (.selection s "lines are numbered from 1"), d) := by
  rw [perform_of_asked h]
  simp only [host, select?, if_pos hzero]

/-- A refused selection leaves the document alone. -/
theorem eq_of_select_error (h : host.select s d = (.error e, d')) : d' = d := by
  simp only [host] at h
  split at h
  · cases h
  · exact (Prod.mk.inj h).2.symm

theorem select?_of_select_ok (h : host.select s d = (.ok (), d')) :
    d.select? s.anchor s.active = some d' := by
  simp only [host] at h
  split at h
  · rename_i d₁ hselect
    rw [hselect, (Prod.mk.inj h).2]
  · cases h

/-- What is asked of the document as a host keeps it reachable, also when it is refused. -/
theorem Reachable.host_select (h : Reachable text d) (s : Selection) :
    Reachable text (host.select s d).2 := by
  rcases hselect : host.select s d with ⟨⟨⟩ | ⟨⟩, d'⟩
  · rw [eq_of_select_error hselect]
    exact h
  · exact h.select (select?_of_select_ok hselect)

theorem Reachable.edit (h : Reachable text d) (e : Edit) : Reachable text (d.edit e) := by
  cases e with
  | setCaret p => exact h.setCaret p
  | select anchor active => exact h.host_select _
  | setSelection span => exact h.host_select _

/-- **Edits lead to reachable documents.** -/
theorem reachable_edits (text : List Char) (es : List Edit) :
    Reachable text ((ofText text).edits es) := by
  have hrun : ∀ d, Reachable text d → Reachable text (d.edits es) := by
    induction es with
    | nil => exact fun d h => h
    | cons e es ih => exact fun d h => ih (d.edit e) (h.edit e)
  exact hrun _ .ofText

/-- A caret is found again at the point that the document itself names. -/
theorem offsetOf_pointOf {o : Nat} (h : IsCaret d.text o) (ht : d'.text = d.text) :
    d'.offsetOf (d.pointOf o) = o := by
  rw [pointOf_eq h, ← ht]
  exact offsetOf_point (ht ▸ h)

/-- **Selecting what was selected** gives the document back. -/
theorem Reachable.select_back (h : Reachable text d) (ht : d'.text = d.text) :
    host.select d.selection d' = (.ok (), d) := by
  obtain ⟨rfl, hanchor, hactive⟩ := h.isCaret
  have hsome : d'.select? d.selection.anchor d.selection.active = some d := by
    rw [select?, if_neg (by simp [selection, pointOf])]
    simp only [selection, offsetOf_pointOf hanchor ht, offsetOf_pointOf hactive ht, ht]
  simp only [host, hsome]

end SqlCaret.Document
