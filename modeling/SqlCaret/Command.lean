import SqlCaret.Config.File
import SqlCaret.Session
import SqlCaret.Statement.Report

/-!
# Command

The three commands on a script file: run the statement at a caret, locate it, and outline the
whole script.  To run is to print: the output is what an editor's command would have been
given.  Each command is a function of the file's content; its output is text.
-/

namespace SqlCaret

/-- Why a command has no answer. -/
inductive Failure where
  | config (fault : Config.Fault)
  /-- The file that was named for the settings does not exist. -/
  | configMissing (path : Path)
  | unreadable (file : Path) (fault : FileFault)
  | notUtf8 (file : Path) (fault : Utf8.Fault)
  | host (fault : HostFault)
deriving Repr, DecidableEq

namespace Failure

def message : Failure → String
  | .config fault => fault.message
  | .configMissing path => "config file " ++ String.ofList path ++ " not found"
  | .unreadable file _ => "failed to read " ++ String.ofList file
  | .notUtf8 file _ => String.ofList file ++ " is not UTF-8"
  | .host fault => fault.message

/-- What lies behind a failure. -/
def cause? : Failure → Option String
  | .config fault => fault.cause?
  | .unreadable _ fault => some fault.message
  | .notUtf8 _ fault => some fault.message
  | .configMissing _ | .host _ => none

/-- The failure and its cause on one line. -/
def text (f : Failure) : String :=
  match f.cause? with
  | some cause => f.message ++ ": " ++ cause
  | none => f.message

/-- The failure as it is reported to a user. -/
def report (f : Failure) : String :=
  "Error: " ++ f.message ++ "\n" ++
    match f.cause? with
    | some cause => "\nCaused by:\n    " ++ cause ++ "\n"
    | none => ""

end Failure

namespace Command

/-- The document that a file's content is. -/
def open? (file : Path) (content : Except FileFault (List UInt8)) : Except Failure Document :=
  match content with
  | .error fault => .error (.unreadable file fault)
  | .ok bytes => (Document.ofBytes bytes).mapError (.notUtf8 file)

/-- A command that prints what it is to run, a line feed after each. -/
def printer : Gateway (List Char) where
  available _ := true
  execute seen out := (.ok (), out ++ seen.executionText ++ ['\n'])

/-- The document with its caret at `caret`, or with the text from `anchor` to there
selected. -/
def place (d : Document) (caret : Point) : (anchor : Option Point) → Except HostFault Document
  | none => .ok (d.setCaret caret)
  | some anchor =>
    let r := Document.host.select ⟨anchor, caret⟩ d
    r.1.map fun _ => r.2

/-- Runs the statement at the caret, or what is selected: the output, and what the run came
to. -/
def run (reader : ScriptReader) (caret : Point) (anchor : Option Point) (scope : Scope)
    (d : Document) : Except Failure (List Char × Outcome) :=
  match place d caret anchor with
  | .error fault => .error (.host fault)
  | .ok d =>
    let r := Session.runAtCaret reader Document.host printer scope ⟨d, [], []⟩
    match r.1 with
    | .error fault => .error (.host fault)
    | .ok outcome => .ok (r.2.gateway, outcome)

/-- JSON as output. -/
def printed (j : Json) : List Char := Json.pretty 0 j ++ ['\n']

def line (s : String) : List Char := s.toList ++ ['\n']

/-- The statement at the caret, as JSON with its text or as its span alone.  The caret is taken
as given, and errors in the script do not matter. -/
def locate (reader : ScriptReader) (caret : Point) (scope : Scope) (json : Bool)
    (d : Document) : List Char :=
  let parsed := reader d.text
  let span? := parsed.script.locate scope caret
  if json then
    printed (.record [("cursor", caret.toJson), ("scope", scope.toJson),
      ("range", .option Span.toJson span?),
      ("text", .option (fun s => .string (some (d.slice s))) span?),
      ("parse_errors", .natural parsed.errors.length)])
  else
    match span? with
    | some span => line span.text
    | none => line ("no statement at " ++ caret.text)

mutual

/-- A line for a statement and lines for those inside it, two more blanks in per level. -/
def outlineStatement (depth : Nat) : Statement → List Char
  | s@(.simple _) => outlineHead depth s
  | s@(.block _ cs) => outlineHead depth s ++ outlineStatements (depth + 1) cs
  | s@(.conditional _ t e) =>
    outlineHead depth s ++ outlineBranch (depth + 1) t ++ outlineBranch (depth + 1) e
  | s@(.loop _ b) => outlineHead depth s ++ outlineStatement (depth + 1) b

def outlineStatements (depth : Nat) : List Statement → List Char
  | [] => []
  | s :: ss => outlineStatement depth s ++ outlineStatements depth ss

def outlineBranch (depth : Nat) : Option Statement → List Char
  | none => []
  | some s => outlineStatement depth s

/-- The line of a statement itself. -/
def outlineHead (depth : Nat) (s : Statement) : List Char :=
  List.replicate (2 * depth) ' ' ++ line (s.kind.name ++ " " ++ s.span.text)

end

/-- Each batch under its number, counting from `number`. -/
def outlineBatches (number : Nat) : List Batch → List Char
  | [] => []
  | b :: bs =>
    line ("batch " ++ toString number) ++ outlineStatements 1 b ++ outlineBatches (number + 1) bs

/-- All statements and all errors of a script, as JSON or as lines. -/
def outline (reader : ScriptReader) (json : Bool) (d : Document) : List Char :=
  let parsed := reader d.text
  if json then
    printed (.record [("script", parsed.script.toJson),
      ("errors", .array (parsed.errors.map fun e =>
        .record [("message", .text e.message), ("at", e.point.toJson)]))])
  else
    outlineBatches 1 parsed.script.batches ++
      if parsed.isOk then []
      else
        line (toString parsed.errors.length ++ " parse errors") ++
          parsed.errors.flatMap fun e => line ("  " ++ e.text)

end Command

end SqlCaret
