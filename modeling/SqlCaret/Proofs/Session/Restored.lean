import SqlCaret.Proofs.Document.Edited
import SqlCaret.Proofs.Session.Course

/-!
# Session — restored

A run leaves the document as it was (`Session.keeps_document`).  Only one course moves the
selection, and that one puts it back.  What it puts back are points, and points say less than
offsets: but the ends of a reachable selection stand where carets can, and there a point leads back
to its offset.
-/

namespace SqlCaret.Session

variable {γ : Type}

/-- **A course on a document leaves it as it was**, to the byte. -/
theorem Course.document_eq {q : Request γ} {text : List Char} {d d' : Document} {g g' : γ}
    {calls : List Call} {answer : Except HostFault Outcome} (hd : Document.Reachable text d)
    (hc : Course Document.host q d g calls answer d' g') : d' = d := by
  cases hc with
  | unavailable => rfl
  | existing => rfl
  | whole => rfl
  | missed => rfl
  | refused _ _ _ _ hm => exact Document.eq_of_select_error hm
  | @statement _ _ _ d₁ _ _ _ _ _ _ hm _ hb =>
      have htext : d₁.text = d.text := by
        rw [Document.select?_eq_some (Document.select?_of_select_ok hm)]
      have hback : Document.host.select d.selection d₁ = (.ok (), d) := hd.select_back htext
      exact (Prod.mk.inj (hb.symm.trans hback)).2

/-- **A run never moves the selection.**  Load any text, set carets and select in it in any way,
also where it is refused; then run at the caret or at any other point, with any reader, scope and
gateway.  Whatever comes of it, the document is afterwards what it was: the text, and the anchor and
the caret to the byte. -/
theorem keeps_document (text : List Char) (edits : List Document.Edit) (reader : ScriptReader)
    (G : Gateway γ) (scope : Scope) (gateway : γ) (calls : List Call) :
    let d : Desk Document γ := ⟨(Document.ofText text).edits edits, gateway, calls⟩
    (runAtCaret reader Document.host G scope d).2.host = d.host ∧
      ∀ (cursor : Point) (selected : Bool),
        (runAt reader Document.host G cursor scope selected d).2.host = d.host := by
  intro d
  have hd : Document.Reachable text d.host := Document.reachable_edits text edits
  have hrun : ∀ q : Request γ, (q.perform Document.host d).2.host = d.host := by
    intro q
    obtain ⟨_, -, hc⟩ := course_perform Document.host q d
    exact hc.document_eq hd
  exact ⟨hrun ⟨reader, G, scope, .caret⟩,
    fun cursor selected => hrun ⟨reader, G, scope, .point cursor selected⟩⟩

end SqlCaret.Session
