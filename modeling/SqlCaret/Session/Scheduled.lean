import SqlCaret.Session.Host

/-!
# Session — scheduled failures

A host and a command that fail when they are told to.  Any host can be made stubborn
(`Host.stubborn`): it counts the calls that move its selection and refuses the one that it is told
to refuse.  The command can be unavailable, or can fail in either of its two ways.
-/

namespace SqlCaret

/-- A host that refuses to move its selection once, with its state as its `document`. -/
structure Stubborn (σ : Type) where
  document : σ
  /-- The call to refuse, counted from one. -/
  refuses : Option Nat := none
  /-- How many calls there were. -/
  selects : Nat := 0
deriving Repr, DecidableEq

/-- The host shows what it shows otherwise, and refuses one call without passing it on. -/
def Host.stubborn {σ : Type} (H : Host σ) : Host (Stubborn σ) where
  view d := H.view d.document
  select s d :=
    let d := { d with selects := d.selects + 1 }
    if d.refuses = some d.selects then (.error (.selection s "host refused"), d)
    else
      let r := H.select s d.document
      (r.1, { d with document := r.2 })

/-- A document as the editor has it, but for one refusal. -/
abbrev StubbornDocument := Stubborn Document

def StubbornDocument.host : Host StubbornDocument := Document.host.stubborn

/-- A command that answers as planned. -/
structure Plan where
  available : Bool := true
  /-- The text of a failure of the command. -/
  failure : Option String := none
  /-- The text of a failure to write; a failure of the command goes first. -/
  writeFailure : Option String := none
deriving Repr, DecidableEq

def Plan.gateway : Gateway Plan where
  available p := p.available
  execute _ p :=
    match p.failure, p.writeFailure with
    | some message, _ => (.error (.execution message), p)
    | none, some message => (.error (.transport message), p)
    | none, none => (.ok (), p)

end SqlCaret
