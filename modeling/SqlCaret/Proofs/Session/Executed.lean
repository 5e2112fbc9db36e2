import SqlCaret.Proofs.Document.Reachable
import SqlCaret.Proofs.Statement.Locate
import SqlCaret.Proofs.Statement.Parsed
import SqlCaret.Session

/-!
# Session — executed

What a command is given to run.  A run that answers a statement has read the text, selected the
statement that was located, called the command once and put the selection back
(`Session.calls_of_statement`).

In a document the points of a statement are turned back into the bytes of its node
(`ParsedScript.offsetOf_row`), so that selecting it selects just these
(`ParsedScript.select?_row`).  `Session.executes_statement` says it of whole runs.
-/

namespace SqlCaret

namespace Session

variable {σ γ : Type} {reader : ScriptReader} {H : Host σ} {G : Gateway γ} {cursor : Point}
  {scope : Scope} {selected : Bool} {saved : Option Selection} {d : Desk σ γ} {span : Span}

theorem calls_of_executeSpan {span' : Span} {before : Selection}
    (h : (executeSpan H G span' before d).1 = .ok (.statement span)) :
    span' = span ∧ ∃ host, H.select ⟨span.start, span.stop⟩ d.host = (.ok (), host) ∧
      (executeSpan H G span' before d).2.calls =
        d.calls ++ [.select ⟨span.start, span.stop⟩, .execute (H.view host),
          .select before] := by
  rcases hmove : H.select ⟨span'.start, span'.stop⟩ d.host with ⟨moved, host⟩
  cases moved with
  | error e => simp [executeSpan, select, hmove] at h
  | ok _ =>
      simp only [executeSpan, select, hmove, execute] at h ⊢
      cases hrun : (G.execute (H.view host) d.gateway).1 with
      | error e =>
          rw [hrun] at h
          cases h
      | ok _ =>
          cases hback : (H.select before host).1 with
          | error e =>
              rw [hrun, hback] at h
              cases h
          | ok _ =>
              rw [hrun, hback] at h
              cases h
              exact ⟨rfl, host, hmove, by simp⟩

theorem ne_statement_of_executeFor {seen : View} {outcome : Outcome} {d' : Desk σ γ}
    (hne : outcome ≠ .statement span) :
    (executeFor G seen outcome d').1 ≠ .ok (.statement span) := by
  rw [executeFor]
  intro h
  cases hrun : (execute G seen d').1 with
  | error e =>
      simp only [hrun] at h
      cases h
  | ok _ =>
      simp only [hrun] at h
      exact hne (Except.ok.inj h)

/-- **What a run that answers a statement has done**: in this order it has read the text,
selected the statement, called the command once on what is selected then, and put the selection
back. -/
theorem calls_of_statement
    (h : (run reader H G cursor scope selected saved d).1 = .ok (.statement span)) :
    (reader (H.view d.host).text).script.locate scope cursor = some span ∧
      ∃ host, H.select ⟨span.start, span.stop⟩ d.host = (.ok (), host) ∧
        (run reader H G cursor scope selected saved d).2.calls =
          d.calls ++ [.parse, .select ⟨span.start, span.stop⟩, .execute (H.view host),
            .select (saved.getD (H.view d.host).selection)] := by
  simp only [run] at h ⊢
  split at h
  · cases h
  rw [if_neg ‹_›]
  split at h
  · exact absurd h (ne_statement_of_executeFor (by simp))
  rw [if_neg ‹_›]
  split at h
  · exact absurd h (ne_statement_of_executeFor (by simp))
  rw [if_neg ‹_›]
  split at h
  · cases h
  · rename_i found hlocate
    obtain ⟨rfl, host, hmove, hcalls⟩ := calls_of_executeSpan h
    refine ⟨hlocate, host, hmove, ?_⟩
    rw [hcalls]
    simp [parse]

end Session

/-! ### Documents -/

namespace ParsedScript

variable {text separator : List Char} {r : Tree.Row} {d : Document}

/-- A statement row starts and stops where carets can stand. -/
theorem isCaret_row (hr : r ∈ Parse.rows text separator) (hs : r.IsStatement) :
    Document.IsCaret text r.start ∧ Document.IsCaret text r.stop := by
  obtain ⟨⟨t, ht, hstart⟩, ⟨t', ht', hstop⟩, -⟩ := exists_text_of_row hr hs
  exact ⟨hstart ▸ (isCaret_of_mem_significant ht).1, hstop ▸ (isCaret_of_mem_significant ht').2⟩

/-- **The points of a statement are turned back into its bytes.** -/
theorem offsetOf_row (hr : r ∈ Parse.rows d.text separator) (hs : r.IsStatement) :
    d.offsetOf ((LineIndex.ofText d.text).point r.start) = r.start ∧
      d.offsetOf ((LineIndex.ofText d.text).point r.stop) = r.stop := by
  obtain ⟨hstart, hstop⟩ := isCaret_row hr hs
  exact ⟨Document.offsetOf_point hstart, Document.offsetOf_point hstop⟩

/-- **Selecting a statement selects its bytes.**  What is selected then is not empty, so it is
what an execute command runs. -/
theorem select?_row (hr : r ∈ Parse.rows d.text separator) (hs : r.IsStatement) :
    ∃ d', d.select? ((LineIndex.ofText d.text).point r.start)
        ((LineIndex.ofText d.text).point r.stop) = some d' ∧
      d'.selection.isEmpty = false ∧ r.IsText d.text d'.executionText := by
  obtain ⟨hstart, hstop⟩ := offsetOf_row hr hs
  obtain ⟨hfirst, hlast⟩ := isCaret_row hr hs
  obtain ⟨-, -, inside, hne, before, behind, htext, hsize, hsize'⟩ := exists_text_of_row hr hs
  have hselection : (⟨d.text, r.start, r.stop⟩ : Document).selection =
      ⟨(LineIndex.ofText d.text).point r.start, (LineIndex.ofText d.text).point r.stop⟩ := by
    have hfirst := Document.pointOf_eq (d := ⟨d.text, r.start, r.stop⟩) hfirst
    have hlast := Document.pointOf_eq (d := ⟨d.text, r.start, r.stop⟩) hlast
    simp only [Document.selection, hfirst, hlast]
  have hselected : (⟨d.text, r.start, r.stop⟩ : Document).selection.isEmpty = false := by
    rw [hselection, Selection.isEmpty, beq_eq_false_iff_ne]
    exact Point.ne_of_lt (point_start_lt_point_stop hr hs)
  refine ⟨⟨d.text, r.start, r.stop⟩, ?_, hselected, ?_⟩
  · rw [Document.select?, hstart, hstop, if_neg (by simp [LineIndex.point])]
  · have hexecution : (⟨d.text, r.start, r.stop⟩ : Document).executionText = inside := by
      have hle : r.start ≤ r.stop := by omega
      simp only [Document.executionText, View.executionText, Document.view, hselected,
        Bool.false_eq_true, if_false, Document.selectedText, Nat.min_eq_left hle,
        Nat.max_eq_right hle]
      rw [htext, ← hsize, ← hsize', Utf8.slice_size_append]
    rw [hexecution]
    exact ⟨hne, before, behind, htext, hsize, hsize'⟩

end ParsedScript

/-- **Runs execute statements.**  Whatever the text and the separator:

In any document over the text, the points of each statement of the parse are turned back into
the bytes of its node, and selecting the statement makes just these the text to execute.

A run from any caret that answers a statement has called the command once, on just the bytes of
one statement node, and the caret is within this node. -/
theorem Session.executes_statement (text separator : List Char) :
    (∀ d : Document, d.text = text → ∀ s ∈ (ParsedScript.ofText text separator).script.walk,
      ∃ r ∈ Parse.rows text separator, r.IsStatement ∧
        d.offsetOf s.span.start = r.start ∧ d.offsetOf s.span.stop = r.stop ∧
        ∃ d', d.select? s.span.start s.span.stop = some d' ∧ d'.selection.isEmpty = false ∧
          r.IsText text d'.executionText) ∧
      ∀ {γ : Type} (G : Gateway γ) (scope : Scope) (d : Desk Document γ) (span : Span),
        Document.Reachable text d.host →
        (runAtCaret (ParsedScript.ofText · separator) Document.host G scope d).1 =
          .ok (.statement span) →
        ∃ seen, (runAtCaret (ParsedScript.ofText · separator) Document.host G scope d).2.calls =
            d.calls ++ [.parse, .select ⟨span.start, span.stop⟩, .execute seen,
              .select d.host.selection] ∧
          span.contains d.host.selection.active = true ∧
          ∃ r ∈ Parse.rows text separator, r.IsStatement ∧
            span = ⟨(LineIndex.ofText text).point r.start,
              (LineIndex.ofText text).point r.stop⟩ ∧
            r.start ≤ d.host.active ∧ d.host.active ≤ r.stop ∧
            r.IsText text seen.executionText := by
  constructor
  · rintro d rfl s hs
    obtain ⟨r, hr, hrow, hspan⟩ := ParsedScript.exists_row_of_mem_walk hs
    obtain ⟨hstart, hstop⟩ := ParsedScript.offsetOf_row hr hrow
    rw [hspan]
    exact ⟨r, hr, hrow, hstart, hstop, ParsedScript.select?_row hr hrow⟩
  · intro γ G scope d span hd h
    obtain ⟨htext, -, hactive⟩ := hd.isCaret
    obtain ⟨hlocate, d', hselect, hcalls⟩ := calls_of_statement h
    subst htext
    obtain ⟨s, hs, rfl, hcontains⟩ := Script.locate_sound hlocate
    obtain ⟨r, hr, hrow, hspan⟩ := ParsedScript.exists_row_of_mem_walk hs
    obtain ⟨d'', hsome, -, hexecution⟩ := ParsedScript.select?_row hr hrow
    obtain ⟨hfirst, hlast⟩ := ParsedScript.isCaret_row hr hrow
    -- the points that the run has selected are those of the row
    have hd' : d' = d'' := by
      rw [hspan] at hselect
      have hmoved : Document.host.select ⟨(LineIndex.ofText d.host.text).point r.start,
          (LineIndex.ofText d.host.text).point r.stop⟩ d.host = (.ok (), d'') := by
        simp only [Document.host, hsome]
      exact (Prod.mk.inj (hselect.symm.trans hmoved)).2
    obtain ⟨hle, hle'⟩ := Span.contains_iff.mp hcontains
    have hcursor : (Document.host.view d.host).selection.active =
        (LineIndex.ofText d.host.text).point d.host.active := Document.pointOf_eq hactive
    rw [hcursor, hspan] at hle hle'
    exact ⟨_, hcalls, hcontains, r, hr, hrow, hspan, Document.le_of_point_le hfirst hactive hle,
      Document.le_of_point_le hactive hlast hle', hd' ▸ hexecution⟩

/-- A text of one statement, selected and run. -/
theorem Session.executes_throw :
    (∃ d', (Document.ofText ['T', 'H', 'R', 'O', 'W']).select? ⟨1, 0⟩ ⟨1, 5⟩ = some d' ∧
      d'.executionText ≠ []) ∧
    ∃ seen, (runAtCaret (ParsedScript.ofText · ['G', 'O']) Document.host
        ⟨fun _ => true, fun _ u => (.ok (), u)⟩ .block
        ⟨Document.ofText ['T', 'H', 'R', 'O', 'W'], (), []⟩).2.calls =
          [.parse, .select ⟨⟨1, 0⟩, ⟨1, 5⟩⟩, .execute seen, .select (.caret ⟨1, 0⟩)] ∧
      seen.executionText ≠ [] := by
  have hspan : (⟨⟨1, 0⟩, ⟨1, 5⟩⟩ : Span) ∈
      (ParsedScript.ofText ['T', 'H', 'R', 'O', 'W'] ['G', 'O']).script.walk.map (·.span) := by
    decide +kernel
  obtain ⟨s, hs, hspan⟩ := List.mem_map.mp hspan
  obtain ⟨hspans, hruns⟩ := executes_statement ['T', 'H', 'R', 'O', 'W'] ['G', 'O']
  constructor
  · obtain ⟨-, -, -, -, -, d', hselect, -, hne, -⟩ :=
      hspans (.ofText ['T', 'H', 'R', 'O', 'W']) rfl s hs
    rw [hspan] at hselect
    exact ⟨d', hselect, hne⟩
  · obtain ⟨seen, hcalls, -, -, -, -, -, -, -, hne, -⟩ :=
      hruns ⟨fun _ => true, fun _ u => (.ok (), u)⟩ .block
        ⟨Document.ofText ['T', 'H', 'R', 'O', 'W'], (), []⟩ ⟨⟨1, 0⟩, ⟨1, 5⟩⟩ .ofText
        (by decide +kernel)
    exact ⟨seen, hcalls, hne⟩

end SqlCaret
