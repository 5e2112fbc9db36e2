import SqlCaret.Document
import SqlCaret.Statement.Parsed

/-!
# Session — host

The three things that a session works with.  A host is an editor: it has a text and a
selection, and the selection can be moved.  A gateway is the editor's command that runs what is
selected.  A reader makes a script of a text.

Hosts and gateways are given by their operations over a state of any type, so a session can be
followed with any of them.  A gateway never sees the host itself, only a `View` of it.
-/

namespace SqlCaret

/-- What a host or a gateway can refuse. -/
inductive HostFault where
  /-- The command failed. -/
  | execution (message : String)
  /-- The selection could not be moved. -/
  | selection (target : Selection) (reason : String)
  /-- The command could not write. -/
  | transport (message : String)
deriving Repr, DecidableEq

def HostFault.message : HostFault → String
  | .execution message => "execute command failed: " ++ message
  | .selection target reason =>
    "failed to move selection to " ++ target.text ++ ": " ++ reason
  | .transport message => message

/-- What a gateway sees of a host. -/
structure View where
  text : List Char
  selection : Selection
  selectedText : List Char
deriving Repr, DecidableEq

namespace View

/-- What an execute command runs: the selection, or the whole text when nothing is
selected. -/
def executionText (v : View) : List Char :=
  if v.selection.isEmpty then v.text else v.selectedText

/-- The same host with the selection brought down to its caret, so that the whole text runs. -/
def whole (v : View) : View := ⟨v.text, .caret v.selection.active, []⟩

end View

/-- An editor, by its operations over a state `σ`. -/
structure Host (σ : Type) where
  view : σ → View
  /-- Moves the selection; a state comes back also when it fails. -/
  select : Selection → σ → Except HostFault Unit × σ

/-- An execute command, by its operations over a state `γ`. -/
structure Gateway (γ : Type) where
  /-- Whether the command can run now. -/
  available : γ → Bool
  execute : View → γ → Except HostFault Unit × γ

/-- A way to make a script of a text. -/
abbrev ScriptReader := List Char → ParsedScript

namespace Document

def view (d : Document) : View := ⟨d.text, d.selection, d.selectedText⟩

/-- A document is a host. -/
def host : Host Document where
  view := view
  select s d :=
    match d.select? s.anchor s.active with
    | some d => (.ok (), d)
    | none => (.error (.selection s "lines are numbered from 1"), d)

/-- What an execute command would run. -/
def executionText (d : Document) : List Char := d.view.executionText

end Document

end SqlCaret
