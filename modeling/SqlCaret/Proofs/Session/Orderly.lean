import SqlCaret.Proofs.Session.Course
import SqlCaret.Session.Scheduled

/-!
# Session — orderly

Runs one after the other, on a host that selects just what it is asked to select or refuses and
shows what it showed (`Host.Obedient`).  It may refuse at any time, and so may the command; what is
asked for is new in each run.  A `Turn` is a run with what there was before it and after it.

A turn is `Orderly` when its calls are: at most one reading and one execution, nothing selected but
the statement before the execution and what was selected after it, and that just when it has to be
put back.  Every run makes an orderly turn (`Session.orderly_serve`), and so does each of a row of
runs (`Session.orderly_turns`).
-/

namespace SqlCaret

/-- What is selected in the host is just what it was last asked to select, or else it has refused
and shows what it showed. -/
structure Host.Obedient {σ : Type} (H : Host σ) : Prop where
  moves : ∀ {s h h'}, H.select s h = (.ok (), h') → (H.view h').selection = s
  refuses : ∀ {s h h' e}, H.select s h = (.error e, h') → H.view h' = H.view h

/-- A host that refuses once more than it would is still obedient. -/
theorem Host.Obedient.stubborn {σ : Type} {H : Host σ} (hH : H.Obedient) :
    H.stubborn.Obedient where
  moves := by
    intro s d d' hselect
    simp only [Host.stubborn] at hselect ⊢
    split at hselect
    · cases hselect
    · obtain ⟨hok, rfl⟩ := Prod.mk.inj hselect
      exact hH.moves (Prod.ext hok rfl)
  refuses := by
    intro s d d' e hselect
    simp only [Host.stubborn] at hselect ⊢
    split at hselect
    · obtain ⟨-, rfl⟩ := Prod.mk.inj hselect
      rfl
    · obtain ⟨herror, rfl⟩ := Prod.mk.inj hselect
      exact hH.refuses (Prod.ext herror rfl)

/-- A view as a host of its own, where anything can be selected. -/
def View.host : Host View where
  view v := v
  select s v := (.ok (), { v with selection := s })

theorem View.obedient_host : View.host.Obedient where
  moves := by
    rintro s v v' hselect
    obtain ⟨-, rfl⟩ := Prod.mk.inj hselect
    rfl
  refuses := by
    rintro s v v' e hselect
    cases hselect

namespace Session

variable {σ γ : Type}

/-! ### Calls -/

namespace Call

def target? : Call → Option Selection
  | .select target => some target
  | _ => none

def seen? : Call → Option View
  | .execute seen => some seen
  | _ => none

end Call

/-- What the command was called on. -/
def shown (calls : List Call) : List View := calls.filterMap Call.seen?

/-- What was selected before the command was called. -/
def selectedBefore (calls : List Call) : List Selection :=
  (calls.takeWhile fun c => c.seen?.isNone).filterMap Call.target?

/-- What was selected once the command had been called. -/
def selectedAfter (calls : List Call) : List Selection :=
  (calls.dropWhile fun c => c.seen?.isNone).filterMap Call.target?

@[simp] theorem shown_nil : shown [] = [] := rfl

@[simp] theorem shown_parse (calls : List Call) : shown (.parse :: calls) = shown calls := rfl

@[simp] theorem shown_select (s : Selection) (calls : List Call) :
    shown (.select s :: calls) = shown calls := rfl

@[simp] theorem shown_execute (seen : View) (calls : List Call) :
    shown (.execute seen :: calls) = seen :: shown calls := rfl

/-! ### One course -/

namespace Request

/-- The statement to be selected, if one is to be. -/
def sought (q : Request γ) (H : Host σ) (h : σ) (g : γ) : Option Span :=
  if q.gateway.available g && !q.selected H h && (q.script H h).isOk then q.found H h else none

theorem sought_eq {q : Request γ} {H : Host σ} {h : σ} {g : γ}
    (ha : q.gateway.available g = true) (hs : q.selected H h = false)
    (ho : (q.script H h).isOk = true) : q.sought H h g = q.found H h := by
  simp [sought, ha, hs, ho]

/-- The statement could be selected, and then the host is `h'`. -/
def Selects (q : Request γ) (H : Host σ) (h : σ) (g : γ) (h' : σ) : Prop :=
  ∃ span, q.sought H h g = some span ∧ H.select ⟨span.start, span.stop⟩ h = (.ok (), h')

/-- The statement could be selected, but then the host refused to put the selection back. -/
def Stuck (q : Request γ) (H : Host σ) (h : σ) (g : γ) : Prop :=
  ∃ h', q.Selects H h g h' ∧ ∃ e h'', H.select (H.view h).selection h' = (.error e, h'')

end Request

namespace Course

variable {H : Host σ} {q : Request γ} {h h' : σ} {g g' : γ} {calls : List Call}
  {answer : Except HostFault Outcome}

theorem parses_once (hc : Course H q h g calls answer h' g') : calls.count .parse ≤ 1 := by
  cases hc <;> simp

theorem executes_once (hc : Course H q h g calls answer h' g') : (shown calls).length ≤ 1 := by
  cases hc <;> simp

theorem calls_of_unavailable (hc : Course H q h g calls answer h' g')
    (ha : q.gateway.available g = false) : calls = [] := by
  cases hc <;> simp_all

theorem calls_of_selected (hc : Course H q h g calls answer h' g')
    (ha : q.gateway.available g = true) (hs : q.selected H h = true) :
    calls = [.execute (H.view h)] := by
  cases hc <;> simp_all

theorem calls_of_errors (hc : Course H q h g calls answer h' g')
    (ha : q.gateway.available g = true) (hs : q.selected H h = false)
    (ho : (q.script H h).isOk = false) : calls = [.parse, .execute (H.view h).whole] := by
  cases hc <;> simp_all

/-- Before the execution nothing is selected but the statement. -/
theorem selectedBefore_eq (hc : Course H q h g calls answer h' g') :
    selectedBefore calls = (q.sought H h g).toList.map fun span => ⟨span.start, span.stop⟩ := by
  cases hc with
  | unavailable ha => simp [Request.sought, ha, selectedBefore]
  | existing ha hs => simp [Request.sought, hs, selectedBefore, Call.seen?]
  | whole ha hs ho => simp [Request.sought, ho, selectedBefore, Call.seen?, Call.target?]
  | missed ha hs ho hl =>
      rw [Request.sought_eq ha hs ho, hl]
      rfl
  | refused ha hs ho hl | statement ha hs ho hl =>
      rw [Request.sought_eq ha hs ho, hl]
      rfl

/-- After the execution what was selected is put back, if the statement could be selected. -/
theorem selectedAfter_eq (hc : Course H q h g calls answer h' g') {m : σ}
    (hm : q.Selects H h g m) : selectedAfter calls = [(H.view h).selection] := by
  obtain ⟨span, hsought, hselect⟩ := hm
  cases hc with
  | statement => rfl
  | refused ha hs ho hl hm =>
      obtain rfl :=
        Option.some.inj (hl.symm.trans ((Request.sought_eq ha hs ho).symm.trans hsought))
      cases hm.symm.trans hselect
  | missed ha hs ho hl => simp [Request.sought, hl] at hsought
  | unavailable ha => simp [Request.sought, ha] at hsought
  | existing ha hs => simp [Request.sought, hs] at hsought
  | whole ha hs ho => simp [Request.sought, ho] at hsought

theorem selectedAfter_eq_nil (hc : Course H q h g calls answer h' g')
    (hm : ∀ m, ¬ q.Selects H h g m) : selectedAfter calls = [] := by
  cases hc with
  | statement ha hs ho hl hsel =>
      exact absurd ⟨_, (Request.sought_eq ha hs ho).trans hl, hsel⟩ (hm _)
  | _ => rfl

/-- A failure of the command is the answer. -/
theorem answer_of_failure (hc : Course H q h g calls answer h' g') {seen : View}
    (hseen : seen ∈ shown calls) {e : HostFault} {g'' : γ}
    (hx : q.gateway.execute seen g = (.error e, g'')) : answer = .error e := by
  cases hc with
  | existing _ _ hx' | whole _ _ _ hx' =>
      obtain rfl : seen = _ := by simpa using hseen
      rw [(Prod.mk.inj (hx'.symm.trans hx)).1]
      rfl
  | statement _ _ _ _ _ hx' =>
      obtain rfl : seen = _ := by simpa using hseen
      rw [(Prod.mk.inj (hx'.symm.trans hx)).1]
      rfl
  | _ => simp at hseen

/-- What was run is what the answer says. -/
theorem executed_iff (hc : Course H q h g calls answer h' g') {o : Outcome}
    (ho : answer = .ok o) : o.executed = true ↔ shown calls ≠ [] := by
  cases hc with
  | unavailable => cases ho; simp [Outcome.executed]
  | missed => cases ho; simp [Outcome.executed]
  | refused => cases ho
  | @existing r | @whole r =>
      cases r <;> cases ho
      simp [Outcome.executed]
  | @statement _ r b =>
      cases r <;> cases b <;> cases ho
      simp [Outcome.executed]

/-- The selection is what it was, unless putting it back was refused. -/
theorem selection_eq (hH : H.Obedient) (hc : Course H q h g calls answer h' g')
    (hstuck : ¬ q.Stuck H h g) : (H.view h').selection = (H.view h).selection := by
  cases hc with
  | refused _ _ _ _ hm => rw [hH.refuses hm]
  | @statement span _ b m _ _ ha hs ho hl hm _ hb =>
      cases b with
      | ok u => exact hH.moves hb
      | error e =>
          exact absurd ⟨m, ⟨span, (Request.sought_eq ha hs ho).trans hl, hm⟩, e, _, hb⟩ hstuck
  | _ => rfl

end Course

/-! ### Turns -/

/-- A run that was made. -/
structure Turn (σ γ : Type) where
  request : Request γ
  before : Desk σ γ
  answer : Except HostFault Outcome
  after : Desk σ γ

/-- The calls made in this turn. -/
def Turn.calls (t : Turn σ γ) : List Call := t.after.calls.drop t.before.calls.length

/-- What is asked of a turn.  `h` and `g` are the host and the gateway at its beginning. -/
structure Turn.Orderly (H : Host σ) (t : Turn σ γ) : Prop where
  /-- The calls come behind those made before. -/
  log : t.after.calls = t.before.calls ++ t.calls
  parses_once : t.calls.count .parse ≤ 1
  executes_once : (shown t.calls).length ≤ 1
  /-- An unavailable command is not called, and nothing else is. -/
  of_unavailable : t.request.gateway.available t.before.gateway = false → t.calls = []
  /-- What is selected runs without reading or selecting anything. -/
  of_selected : t.request.selected H t.before.host = true →
    .parse ∉ t.calls ∧ ∀ s, .select s ∉ t.calls
  /-- A text with errors runs whole, whatever is selected. -/
  of_errors : t.request.gateway.available t.before.gateway = true →
    t.request.selected H t.before.host = false →
    (t.request.script H t.before.host).isOk = false →
    ∃ seen, t.calls = [.parse, .execute seen] ∧
      seen.executionText = (H.view t.before.host).text ∧ seen.selectedText = []
  /-- Only the statement found is selected before the command is called. -/
  moves : selectedBefore t.calls =
    (t.request.sought H t.before.host t.before.gateway).toList.map fun span =>
      ⟨span.start, span.stop⟩
  /-- Once the command has been called the selection is put back, also when the call failed. -/
  puts_back : (∃ h, t.request.Selects H t.before.host t.before.gateway h) →
    selectedAfter t.calls = [(H.view t.before.host).selection]
  /-- What was not moved is not put back. -/
  leaves : (∀ h, ¬ t.request.Selects H t.before.host t.before.gateway h) →
    selectedAfter t.calls = []
  /-- A failure of the command is the answer, whatever becomes of the selection. -/
  fails : ∀ seen ∈ shown t.calls, ∀ e g,
    t.request.gateway.execute seen t.before.gateway = (.error e, g) → t.answer = .error e
  executed : ∀ o, t.answer = .ok o → (o.executed = true ↔ shown t.calls ≠ [])
  /-- The selection is what it was, unless the host refused to put it back. -/
  keeps : ¬ t.request.Stuck H t.before.host t.before.gateway →
    (H.view t.after.host).selection = (H.view t.before.host).selection

/-- The run of a request. -/
def serve (H : Host σ) (d : Desk σ γ) (q : Request γ) : Turn σ γ :=
  ⟨q, d, (q.perform H d).1, (q.perform H d).2⟩

/-- The runs of requests, one after the other. -/
def turns (H : Host σ) : List (Request γ) → Desk σ γ → List (Turn σ γ)
  | [], _ => []
  | q :: qs, d => serve H d q :: turns H qs (serve H d q).after

/-- What the requests leave. -/
def finish (H : Host σ) (qs : List (Request γ)) (d : Desk σ γ) : Desk σ γ :=
  qs.foldl (fun d q => (serve H d q).after) d

variable {H : Host σ}

/-- **Every run is orderly.** -/
theorem orderly_serve (hH : H.Obedient) (d : Desk σ γ) (q : Request γ) :
    (serve H d q).Orderly H := by
  obtain ⟨calls, hlog, hc⟩ := course_perform H q d
  have hcalls : (serve H d q).calls = calls := by
    simp only [Turn.calls, serve, hlog, List.drop_left]
  refine ⟨?log, ?_, ?_, ?_, ?selected, ?errors, ?_, ?_, ?_, ?_, ?_,
    hc.selection_eq hH⟩
  case log =>
    rw [hcalls]
    exact hlog
  case selected =>
    intro hs
    cases ha : q.gateway.available d.gateway with
    | false => simp [hcalls, hc.calls_of_unavailable ha]
    | true => simp [hcalls, hc.calls_of_selected ha hs]
  case errors =>
    intro ha hs ho
    exact ⟨_, hcalls.trans (hc.calls_of_errors ha hs ho), View.executionText_whole _, rfl⟩
  all_goals rw [hcalls]
  · exact hc.parses_once
  · exact hc.executes_once
  · exact hc.calls_of_unavailable
  · exact hc.selectedBefore_eq
  · exact fun ⟨_, hm⟩ => hc.selectedAfter_eq hm
  · exact hc.selectedAfter_eq_nil
  · exact fun _ hseen _ _ hx => hc.answer_of_failure hseen hx
  · exact fun _ ho => hc.executed_iff ho

/-- **A row of runs.**  On a host that is obedient, whatever is asked for and whatever fails, there
is one turn for each request and every turn is orderly; the calls of all are the calls of each in
their order; and when the selection could be put back in each, it is in the end what it was. -/
theorem orderly_turns (hH : H.Obedient) (qs : List (Request γ)) (d : Desk σ γ) :
    (turns H qs d).map Turn.request = qs ∧
      (∀ t ∈ turns H qs d, t.Orderly H) ∧
      (finish H qs d).calls = d.calls ++ (turns H qs d).flatMap Turn.calls ∧
      ((∀ t ∈ turns H qs d, ¬ t.request.Stuck H t.before.host t.before.gateway) →
        (H.view (finish H qs d).host).selection = (H.view d.host).selection) := by
  induction qs generalizing d with
  | nil => simp [turns, finish]
  | cons q qs ih =>
      have hturn : (serve H d q).Orderly H := orderly_serve hH d q
      obtain ⟨hrequests, horderly, hcalls, hkept⟩ := ih (serve H d q).after
      simp only [turns, List.map_cons, List.forall_mem_cons, List.flatMap_cons]
      refine ⟨by rw [hrequests]; rfl, ⟨hturn, horderly⟩, ?_, ?_⟩
      · have hlog : (serve H d q).after.calls = d.calls ++ (serve H d q).calls := hturn.log
        rw [← List.append_assoc, ← hlog]
        exact hcalls
      · rintro ⟨hfirst, hrest⟩
        exact (hkept hrest).trans (hturn.keeps hfirst)

/-- A command that always fails, on a text of one statement.  When the statement cannot be selected,
the selection stays; when it cannot be put back, the statement is what the next run finds
selected. -/
theorem orderly_turns_throw :
    let H := View.host.stubborn
    let q : Request Plan := ⟨(ParsedScript.ofText · ['G', 'O']), Plan.gateway, .block, .caret⟩
    let d : Nat → Desk (Stubborn View) Plan := fun refused =>
      ⟨⟨⟨['T', 'H', 'R', 'O', 'W'], .caret ⟨1, 2⟩, []⟩, some refused, 0⟩, ⟨true, some "no", none⟩, []⟩
    (H.view (finish H [q] (d 1)).host).selection = (H.view (d 1).host).selection ∧
      (∀ t ∈ turns H [q, q] (d 2), t.Orderly H) ∧
      (finish H [q, q] (d 2)).calls.filterMap Call.target? =
        [⟨⟨1, 0⟩, ⟨1, 5⟩⟩, .caret ⟨1, 2⟩] := by
  intro H q d
  have hH : H.Obedient := View.obedient_host.stubborn
  obtain ⟨-, -, -, hkept⟩ := orderly_turns hH [q] (d 1)
  obtain ⟨-, horderly, -, -⟩ := orderly_turns hH [q, q] (d 2)
  refine ⟨hkept ?_, horderly, by decide +kernel⟩
  intro t ht
  obtain rfl : t = serve H (d 1) q := by simpa [turns] using ht
  rintro ⟨_, ⟨span, -, hselect⟩, -⟩
  cases hselect

end Session

end SqlCaret
