import SqlCaret.Session

/-!
# Session — courses

The ways that a run can go.  What a run is asked for is a `Request`: with which reader, gateway and
scope, and where.  There are six courses (`Session.Course`): the command is unavailable, or what is
selected is run, or the text has errors and is run whole, or no statement is found, or the statement
found cannot be selected, or it is selected and run and the selection put back.  Each says which
calls are made, in which order and on what, what the answer is, and what host and gateway are left.
Every run takes one of them (`Session.course_perform`), so that what is so of all runs is proved by
cases.
-/

namespace SqlCaret

/-- The whole text is what runs when nothing is selected. -/
theorem View.executionText_whole (v : View) : v.whole.executionText = v.text := by
  simp [View.executionText, View.whole, Selection.caret, Selection.isEmpty]

namespace Session

variable {σ γ : Type}

/-- Where a run is asked for. -/
inductive Place where
  | caret
  /-- With `selected` what is selected runs, not what is found at the point. -/
  | point (p : Point) (selected : Bool)
deriving Repr, DecidableEq

/-- What a run is asked for. -/
structure Request (γ : Type) where
  reader : ScriptReader
  gateway : Gateway γ
  scope : Scope
  place : Place

namespace Request

/-- The point around which a statement is looked for. -/
def cursor (q : Request γ) (H : Host σ) (h : σ) : Point :=
  match q.place with
  | .caret => (H.view h).selection.active
  | .point p _ => p

/-- Whether what is selected is to run. -/
def selected (q : Request γ) (H : Host σ) (h : σ) : Bool :=
  match q.place with
  | .caret => !(H.view h).selection.isEmpty
  | .point _ selected => selected

/-- The host's text, read. -/
def script (q : Request γ) (H : Host σ) (h : σ) : ParsedScript := q.reader (H.view h).text

/-- The statement around the cursor. -/
def found (q : Request γ) (H : Host σ) (h : σ) : Option Span :=
  (q.script H h).script.locate q.scope (q.cursor H h)

/-- The run. -/
def perform (q : Request γ) (H : Host σ) (d : Desk σ γ) : Except HostFault Outcome × Desk σ γ :=
  match q.place with
  | .caret => runAtCaret q.reader H q.gateway q.scope d
  | .point p selected => runAt q.reader H q.gateway p q.scope selected d

/-- Either way to run puts back the selection that it finds. -/
theorem exists_run (q : Request γ) (H : Host σ) (d : Desk σ γ) :
    ∃ saved, saved.getD (H.view d.host).selection = (H.view d.host).selection ∧
      q.perform H d = run q.reader H q.gateway (q.cursor H d.host) q.scope
        (q.selected H d.host) saved d := by
  cases hplace : q.place with
  | caret => exact ⟨some (H.view d.host).selection, rfl, by
      simp only [perform, cursor, selected, hplace, runAtCaret]⟩
  | point p selected => exact ⟨none, rfl, by
      simp only [perform, cursor, Request.selected, hplace, runAt]⟩

end Request

/-- What the run of `q` does from the host `h` and the gateway `g`: the calls, the answer, and the
host and the gateway afterwards. -/
inductive Course (H : Host σ) (q : Request γ) (h : σ) (g : γ) :
    List Call → Except HostFault Outcome → σ → γ → Prop where
  | unavailable (ha : q.gateway.available g = false) :
      Course H q h g [] (.ok .unavailable) h g
  | existing {r : Except HostFault Unit} {g' : γ} (ha : q.gateway.available g = true)
      (hs : q.selected H h = true) (hx : q.gateway.execute (H.view h) g = (r, g')) :
      Course H q h g [.execute (H.view h)] (r.map fun _ => .existingSelection) h g'
  | whole {r : Except HostFault Unit} {g' : γ} (ha : q.gateway.available g = true)
      (hs : q.selected H h = false) (ho : (q.script H h).isOk = false)
      (hx : q.gateway.execute (H.view h).whole g = (r, g')) :
      Course H q h g [.parse, .execute (H.view h).whole]
        (r.map fun _ => .wholeScript (q.script H h).errors.length) h g'
  | missed (ha : q.gateway.available g = true) (hs : q.selected H h = false)
      (ho : (q.script H h).isOk = true) (hl : q.found H h = none) :
      Course H q h g [.parse] (.ok .noStatement) h g
  | refused {span : Span} {e : HostFault} {h' : σ} (ha : q.gateway.available g = true)
      (hs : q.selected H h = false) (ho : (q.script H h).isOk = true)
      (hl : q.found H h = some span)
      (hm : H.select ⟨span.start, span.stop⟩ h = (.error e, h')) :
      Course H q h g [.parse, .select ⟨span.start, span.stop⟩] (.error e) h' g
  | statement {span : Span} {r b : Except HostFault Unit} {h' h'' : σ} {g' : γ}
      (ha : q.gateway.available g = true) (hs : q.selected H h = false)
      (ho : (q.script H h).isOk = true) (hl : q.found H h = some span)
      (hm : H.select ⟨span.start, span.stop⟩ h = (.ok (), h'))
      (hx : q.gateway.execute (H.view h') g = (r, g'))
      (hb : H.select (H.view h).selection h' = (b, h'')) :
      Course H q h g
        [.parse, .select ⟨span.start, span.stop⟩, .execute (H.view h'),
          .select (H.view h).selection]
        (do r; b; return .statement span) h'' g'

/-- **Every run takes one of the courses.**  Its calls come behind those made before. -/
theorem course_perform (H : Host σ) (q : Request γ) (d : Desk σ γ) :
    ∃ calls, (q.perform H d).2.calls = d.calls ++ calls ∧
      Course H q d.host d.gateway calls (q.perform H d).1 (q.perform H d).2.host
        (q.perform H d).2.gateway := by
  obtain ⟨saved, hsaved, hrun⟩ := q.exists_run H d
  rw [hrun]
  simp only [run]
  -- in the order of the questions: a gateway, a selection, errors, a statement, the moved caret
  cases ha : q.gateway.available d.gateway with
  | false => exact ⟨[], (List.append_nil _).symm, .unavailable ha⟩
  | true =>
  cases hs : q.selected H d.host with
  | true => exact ⟨_, rfl, .existing ha hs rfl⟩
  | false =>
  by_cases ho : (q.reader (H.view d.host).text).isOk = true
  case neg =>
    rw [Bool.not_eq_true] at ho
    refine ⟨[.parse, .execute (H.view d.host).whole], ?_, ?_⟩
    · simp [parse, ho, executeFor, execute]
    · simpa [parse, ho, executeFor, execute] using .whole ha hs ho rfl
  case pos =>
  simp only [parse, ho, Bool.not_true, Bool.false_eq_true, if_false, hsaved]
  cases hl : (q.reader (H.view d.host).text).script.locate q.scope (q.cursor H d.host) with
  | none => exact ⟨_, rfl, .missed ha hs ho hl⟩
  | some span =>
  rcases hm : H.select ⟨span.start, span.stop⟩ d.host with ⟨moved, h'⟩
  cases moved with
  | error e =>
      refine ⟨[.parse, .select ⟨span.start, span.stop⟩], ?_, ?_⟩
      · simp [executeSpan, select, hm]
      · simpa [executeSpan, select, hm] using .refused ha hs ho hl hm
  | ok u =>
      refine ⟨[.parse, .select ⟨span.start, span.stop⟩, .execute (H.view h'),
        .select (H.view d.host).selection], ?_, ?_⟩
      · simp [executeSpan, select, execute, hm]
      · simpa [executeSpan, select, execute, hm] using
          .statement ha hs ho hl hm rfl rfl

end Session

end SqlCaret
