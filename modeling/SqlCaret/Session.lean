import SqlCaret.Locate
import SqlCaret.Session.Host

/-!
# Session

Running the statement at the caret.  When the command is unavailable nothing happens.  When
something is selected already, that is run as it is.  Otherwise the text is read: with errors
in it the whole text is run, so that the user sees them where they are, and without errors the
statement around the caret is selected and run, and then the selection is put back to what it
was, also when the command failed.

Every call to the outside is written down in `Desk.calls`, so it can be said not only what a
run did but in which order.
-/

namespace SqlCaret

/-- What a run came to. -/
inductive Outcome where
  | unavailable
  | existingSelection
  | wholeScript (errorCount : Nat)
  | statement (span : Span)
  | noStatement
deriving Repr, DecidableEq

namespace Outcome

/-- Whether the command was called. -/
def executed : Outcome → Bool
  | .existingSelection | .wholeScript _ | .statement _ => true
  | .unavailable | .noStatement => false

def text : Outcome → String
  | .unavailable => "execute command unavailable"
  | .existingSelection => "executed existing selection"
  | .wholeScript n => "executed whole script (" ++ toString n ++ " parse errors)"
  | .statement span => "executed statement " ++ span.text
  | .noStatement => "no statement at caret"

def span? : Outcome → Option Span
  | .statement span => some span
  | _ => none

end Outcome

namespace Session

/-- A call that a session makes. -/
inductive Call where
  | parse
  | select (target : Selection)
  | execute (seen : View)
deriving Repr, DecidableEq

/-- A host and a gateway in use, and the calls made so far. -/
structure Desk (σ γ : Type) where
  host : σ
  gateway : γ
  calls : List Call := []

variable {σ γ : Type}

/-- Moves the host's selection. -/
def select (H : Host σ) (target : Selection) (d : Desk σ γ) :
    Except HostFault Unit × Desk σ γ :=
  let r := H.select target d.host
  (r.1, { d with host := r.2, calls := d.calls ++ [.select target] })

/-- Calls the command on what it is shown. -/
def execute (G : Gateway γ) (seen : View) (d : Desk σ γ) :
    Except HostFault Unit × Desk σ γ :=
  let r := G.execute seen d.gateway
  (r.1, { d with gateway := r.2, calls := d.calls ++ [.execute seen] })

/-- Reads the host's text. -/
def parse (reader : ScriptReader) (H : Host σ) (d : Desk σ γ) : ParsedScript × Desk σ γ :=
  (reader (H.view d.host).text, { d with calls := d.calls ++ [.parse] })

/-- Calls the command and answers `outcome` if it does not fail. -/
def executeFor (G : Gateway γ) (seen : View) (outcome : Outcome) (d : Desk σ γ) :
    Except HostFault Outcome × Desk σ γ :=
  let r := execute G seen d
  (r.1.map fun _ => outcome, r.2)

/-- Selects a span, calls the command and puts the selection back to `saved`.  A failure of the
command is the answer even if putting back fails too. -/
def executeSpan (H : Host σ) (G : Gateway γ) (span : Span) (saved : Selection)
    (d : Desk σ γ) : Except HostFault Outcome × Desk σ γ :=
  let moved := select H ⟨span.start, span.stop⟩ d
  match moved.1 with
  | .error e => (.error e, moved.2)
  | .ok () =>
    let executed := execute G (H.view moved.2.host) moved.2
    let restored := select H saved executed.2
    (do
      executed.1
      restored.1
      return .statement span, restored.2)

/-- Runs the statement around `cursor`.  With `selected` what is selected runs instead.  The
selection put back is `saved`, or what it is before the statement is selected. -/
def run (reader : ScriptReader) (H : Host σ) (G : Gateway γ) (cursor : Point) (scope : Scope)
    (selected : Bool) (saved : Option Selection) (d : Desk σ γ) :
    Except HostFault Outcome × Desk σ γ :=
  if !G.available d.gateway then (.ok .unavailable, d)
  else if selected then executeFor G (H.view d.host) .existingSelection d
  else
    let read := parse reader H d
    if !read.1.isOk then
      executeFor G (H.view read.2.host).whole (.wholeScript read.1.errors.length) read.2
    else
      match read.1.script.locate scope cursor with
      | none => (.ok .noStatement, read.2)
      | some span =>
        let saved := saved.getD (H.view read.2.host).selection
        executeSpan H G span saved read.2

/-- Runs the statement around a given point. -/
def runAt (reader : ScriptReader) (H : Host σ) (G : Gateway γ) (cursor : Point)
    (scope : Scope) (selected : Bool) (d : Desk σ γ) : Except HostFault Outcome × Desk σ γ :=
  run reader H G cursor scope selected none d

/-- Runs what is selected, or the statement around the caret if nothing is. -/
def runAtCaret (reader : ScriptReader) (H : Host σ) (G : Gateway γ) (scope : Scope)
    (d : Desk σ γ) : Except HostFault Outcome × Desk σ γ :=
  let current := (H.view d.host).selection
  run reader H G current.active scope (!current.isEmpty) (some current) d

end Session

end SqlCaret
