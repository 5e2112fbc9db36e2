import SqlCaret.Command
import SqlCaret.Proofs.Document.Edited
import SqlCaret.Proofs.Parse.Errors
import SqlCaret.Proofs.Session.Course
import SqlCaret.Proofs.Session.Executed
import SqlCaret.Proofs.Text.Decoded

/-!
# Command — agreement

To run and to locate are one thing.  What `locate` writes of a caret is a `Command.Report`, and the
report tells what `run` prints there: the text that is reported, if the script has no errors, and
else the whole file (`Command.run_agrees_with_locate`).

`locate` takes the caret as it is given and `run` from the document, which moves a caret that it
cannot have.  So the caret is to be one that the document names itself.
-/

namespace SqlCaret

/-- What a row covers of a text is cut out of it at the bytes of the row. -/
theorem Tree.Row.IsText.slice_eq {text inside : List Char} {r : Tree.Row}
    (h : r.IsText text inside) : Utf8.slice r.start r.stop text = inside := by
  obtain ⟨-, before, behind, htext, hstart, hstop⟩ := h
  rw [htext, ← hstart, ← hstop, Utf8.slice_size_append]

namespace Document

variable {d : Document}

/-- A caret that is set is where it was, if the document names the point. -/
theorem selection_setCaret {caret : Point} (h : d.pointOf (d.offsetOf caret) = caret) :
    (d.setCaret caret).selection = .caret caret := by
  have hpoint : ∀ o, (d.setCaret caret).pointOf o = d.pointOf o := fun _ => rfl
  rw [selection, hpoint, hpoint]
  simp only [setCaret, h, Selection.caret]

/-- **A statement that is located can be selected**, and then what runs is what is cut out between
its ends. -/
theorem exists_select {separator : List Char} {scope : Scope} {p : Point} {span : Span}
    (hlocate : (ParsedScript.ofText d.text separator).script.locate scope p = some span) :
    ∃ d', host.select ⟨span.start, span.stop⟩ d = (.ok (), d') ∧ d'.text = d.text ∧
      (host.view d').executionText = d.slice span := by
  obtain ⟨s, hs, rfl, -⟩ := Script.locate_sound hlocate
  obtain ⟨r, hr, hrow, hspan⟩ := ParsedScript.exists_row_of_mem_walk hs
  obtain ⟨d', hsome, -, hexecution⟩ := ParsedScript.select?_row hr hrow
  obtain ⟨hstart, hstop⟩ := ParsedScript.offsetOf_row hr hrow
  rw [hspan]
  refine ⟨d', by simp only [host, hsome], ?_, ?_⟩
  · rw [select?_eq_some hsome]
  · rw [slice, hstart, hstop, hexecution.slice_eq]
    rfl

end Document

namespace Command

/-- What `locate` reports of a caret. -/
structure Report where
  cursor : Point
  scope : Scope
  range : Option Span
  text : Option (List Char)
  errorCount : Nat
deriving Repr, DecidableEq

def Report.toJson (r : Report) : Json :=
  .record [("cursor", r.cursor.toJson), ("scope", r.scope.toJson),
    ("range", .option Span.toJson r.range),
    ("text", .option (fun t => .string (some t)) r.text),
    ("parse_errors", .natural r.errorCount)]

/-- The report of a caret in a document. -/
def report (reader : ScriptReader) (caret : Point) (scope : Scope) (d : Document) : Report :=
  let span? := (reader d.text).script.locate scope caret
  ⟨caret, scope, span?, span?.map d.slice, (reader d.text).errors.length⟩

theorem locate_eq (reader : ScriptReader) (caret : Point) (scope : Scope) (d : Document) :
    locate reader caret scope true d = printed (report reader caret scope d).toJson := by
  cases h : (reader d.text).script.locate scope caret with
  | none => simp only [locate, report, Report.toJson, h, Option.map_none, Json.option, if_true]
  | some span => simp only [locate, report, Report.toJson, h, Option.map_some, Json.option, if_true]

section
variable {caret : Point} {d : Document}

/-- What `run` asks a session for. -/
def request (reader : ScriptReader) (scope : Scope) : Session.Request (List Char) :=
  ⟨reader, printer, scope, .caret⟩

/-- The way of a run: its course, and what comes of it. -/
theorem exists_course (reader : ScriptReader) (caret : Point) (scope : Scope) (d : Document) :
    ∃ calls answer host out, Session.Course Document.host (request reader scope)
        (d.setCaret caret) [] calls answer host out ∧
      run reader caret none scope d = (answer.map (out, ·)).mapError .host := by
  obtain ⟨calls, -, hcourse⟩ := Session.course_perform Document.host (request reader scope)
    ⟨d.setCaret caret, [], []⟩
  refine ⟨calls, _, _, _, hcourse, ?_⟩
  have hperform : Session.runAtCaret reader Document.host printer scope
      ⟨d.setCaret caret, [], []⟩ =
        (request reader scope).perform Document.host ⟨d.setCaret caret, [], []⟩ := rfl
  simp only [run, place, hperform]
  cases ((request reader scope).perform Document.host ⟨d.setCaret caret, [], []⟩).1 with
  | error e => rfl
  | ok outcome => rfl

/-- **What a run prints**: the statement that is located, or the whole text if there are errors. -/
theorem run_eq (separator : List Char) (scope : Scope) (hd : Document.Reachable d.text d)
    (hcaret : d.pointOf (d.offsetOf caret) = caret) :
    run (ParsedScript.ofText · separator) caret none scope d = .ok
      (if (ParsedScript.ofText d.text separator).isOk then
        match (ParsedScript.ofText d.text separator).script.locate scope caret with
        | some span => (d.slice span ++ ['\n'], .statement span)
        | none => ([], .noStatement)
      else (d.text ++ ['\n'],
        .wholeScript (ParsedScript.ofText d.text separator).errors.length)) := by
  let reader : ScriptReader := (ParsedScript.ofText · separator)
  have hselection : (Document.host.view (d.setCaret caret)).selection = .caret caret :=
    Document.selection_setCaret hcaret
  have hselected : (request reader scope).selected Document.host (d.setCaret caret) = false := by
    rw [Session.Request.selected, request, hselection]
    simp [Selection.isEmpty, Selection.caret]
  have hfound : (request reader scope).found Document.host (d.setCaret caret) =
      (reader d.text).script.locate scope caret := by
    rw [Session.Request.found, Session.Request.cursor, request, hselection]
    rfl
  obtain ⟨calls, answer, host, out, hcourse, hrun⟩ := exists_course reader caret scope d
  rw [hrun]
  -- nothing is selected and the document never refuses, so three of the courses are left
  cases hcourse with
  | unavailable ha => cases ha
  | existing ha hs hx =>
      rw [hselected] at hs
      cases hs
  | whole ha hs ho hx =>
      have ho : (reader d.text).isOk = false := ho
      cases hx
      rw [if_neg (Bool.eq_false_iff.mp ho), View.executionText_whole]
      rfl
  | missed ha hs ho hl =>
      have ho : (reader d.text).isOk = true := ho
      rw [hfound] at hl
      rw [if_pos ho, hl]
      rfl
  | refused ha hs ho hl hm =>
      rw [hfound] at hl
      obtain ⟨d', hselect, -⟩ := (d.setCaret caret).exists_select hl
      cases hm.symm.trans hselect
  | statement ha hs ho hl hm hx hb =>
      have ho : (reader d.text).isOk = true := ho
      rw [hfound] at hl
      obtain ⟨d', hselect, htext, hexecution⟩ := (d.setCaret caret).exists_select hl
      cases hm.symm.trans hselect
      cases hb.symm.trans ((hd.setCaret caret).select_back htext)
      cases hx
      rw [hexecution, if_pos ho, hl]
      rfl

/-- A file that is opened has its bytes, and the caret at its start. -/
theorem of_open {file : Path} {bytes : List UInt8} (h : open? file (.ok bytes) = .ok d) :
    Document.Reachable d.text d ∧ Utf8.encode d.text = bytes := by
  rw [open?, Document.ofBytes] at h
  cases hdecode : Utf8.decode bytes with
  | error e =>
      rw [hdecode] at h
      cases h
  | ok text =>
      rw [hdecode] at h
      cases h
      exact ⟨.ofText, Utf8.encode_of_decode hdecode⟩

end

/-- **Run and locate agree.**  Of a file that is UTF-8 and a caret that its document names: if the
script has no errors, `run` prints the text that `locate` reports and comes to the span that it
reports, and where nothing is reported it prints nothing and finds no statement.  If there are
errors, it prints the bytes of the file and a line feed, whatever is reported. -/
theorem run_agrees_with_locate {file : Path} {bytes : List UInt8} {d : Document}
    (hopen : open? file (.ok bytes) = .ok d) (separator : List Char) (scope : Scope)
    {caret : Point} (hcaret : d.pointOf (d.offsetOf caret) = caret) :
    let reader : ScriptReader := (ParsedScript.ofText · separator)
    let reported := report reader caret scope d
    locate reader caret scope true d = printed reported.toJson ∧
      ((reader d.text).errors = [] →
        (∀ text, reported.text = some text → ∃ span, reported.range = some span ∧
          run reader caret none scope d = .ok (text ++ ['\n'], .statement span)) ∧
        (reported.range = none → reported.text = none ∧
          run reader caret none scope d = .ok ([], .noStatement))) ∧
      ((reader d.text).errors ≠ [] →
        run reader caret none scope d =
            .ok (d.text ++ ['\n'], .wholeScript (reader d.text).errors.length) ∧
          Utf8.encode (d.text ++ ['\n']) = bytes ++ [0x0A]) := by
  intro reader reported
  obtain ⟨hd, hbytes⟩ := of_open hopen
  have hrun := run_eq separator scope hd hcaret
  refine ⟨locate_eq reader caret scope d, fun hnone => ?_, fun herrors => ?_⟩
  · have hok : (ParsedScript.ofText d.text separator).isOk = true := List.isEmpty_iff.mpr hnone
    rw [if_pos hok] at hrun
    constructor
    · intro text htext
      obtain ⟨span, hlocate, rfl⟩ := Option.map_eq_some_iff.mp htext
      rw [hlocate] at hrun
      exact ⟨span, hlocate, hrun⟩
    · intro hlocate
      have hlocate : (reader d.text).script.locate scope caret = none := hlocate
      rw [hlocate] at hrun
      exact ⟨congrArg (Option.map d.slice) hlocate, hrun⟩
  -- the whole text is what the file holds, so nothing depends on what was located
  · have hok : ¬ (ParsedScript.ofText d.text separator).isOk = true :=
      mt List.isEmpty_iff.mp herrors
    rw [if_neg hok] at hrun
    refine ⟨hrun, ?_⟩
    rw [Utf8.encode_append, hbytes]
    rfl

/-- A script of one statement, and one with errors. -/
theorem run_agrees_with_locate_throw :
    let reader : ScriptReader := (ParsedScript.ofText · ['G', 'O'])
    run reader ⟨1, 2⟩ none .inner (.ofText ['T', 'H', 'R', 'O', 'W']) =
        .ok (['T', 'H', 'R', 'O', 'W', '\n'], .statement ⟨⟨1, 0⟩, ⟨1, 5⟩⟩) ∧
      run reader ⟨1, 0⟩ none .inner (.ofText ['I', 'F']) = .ok (['I', 'F', '\n'], .wholeScript 2) := by
  intro reader
  have hthrow : open? [] (.ok [84, 72, 82, 79, 87]) = .ok (.ofText ['T', 'H', 'R', 'O', 'W']) := by
    decide +kernel
  have hif : open? [] (.ok [73, 70]) = .ok (.ofText ['I', 'F']) := by decide +kernel
  obtain ⟨-, hclean, -⟩ :=
    run_agrees_with_locate hthrow ['G', 'O'] .inner (by decide : _ = (⟨1, 2⟩ : Point))
  obtain ⟨-, -, hwhole⟩ :=
    run_agrees_with_locate hif ['G', 'O'] .inner (by decide : _ = (⟨1, 0⟩ : Point))
  constructor
  · obtain ⟨span, hrange, hrun⟩ :=
      (hclean (by decide +kernel)).1 ['T', 'H', 'R', 'O', 'W'] (by decide +kernel)
    have hspan : (report reader ⟨1, 2⟩ .inner (.ofText ['T', 'H', 'R', 'O', 'W'])).range =
        some ⟨⟨1, 0⟩, ⟨1, 5⟩⟩ := by decide +kernel
    rw [hrun, Option.some.inj (hrange.symm.trans hspan)]
    rfl
  · have herrors : (reader (Document.ofText ['I', 'F']).text).errors.length = 2 := by
      change ((Parse.ofText ['I', 'F'] ['G', 'O']).errors.map _).length = 2
      rw [List.length_map, Parse.errors_eq, (SyntaxError.perm_sort _).length_eq]
      decide +kernel
    have hne : (reader (Document.ofText ['I', 'F']).text).errors ≠ [] := by
      intro hnil
      rw [hnil] at herrors
      cases herrors
    rw [(hwhole hne).1, herrors]
    rfl

end Command

end SqlCaret
