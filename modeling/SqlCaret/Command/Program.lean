import SqlCaret.Command
import SqlCaret.Command.Arguments

/-!
# Command — program

The program as a whole: from words, settings and files to a status and output.  Words that are
wrong give status 2 and no output; a command that fails gives status 1 and a report; everything
else gives status 0.
-/

namespace SqlCaret

/-- What the program ends with. -/
structure Response where
  status : Nat
  output : List Char
  failure : Option Failure
  /-- What was wrong with the words. -/
  usage : Option Arguments.Fault
deriving Repr, DecidableEq

namespace Response

def ok (output : List Char) : Response := ⟨0, output, none, none⟩

def failed (failure : Failure) : Response := ⟨1, [], some failure, none⟩

def misused (fault : Arguments.Fault) : Response := ⟨2, [], none, some fault⟩

/-- What is said besides the output. -/
def report (r : Response) : String :=
  (r.failure.map Failure.report).getD "" ++
    (r.usage.map fun u => "error: " ++ u.message ++ "\n").getD ""

end Response

namespace Program

def versionText : String := "sql-executor 0.1.0\n"

def helpText : String :=
  "Run the SQL statement under the cursor instead of the whole script\n\n" ++
  "Usage: sql-executor [-v] [--config PATH] COMMAND\n\n" ++
  "Commands:\n" ++
  "  run FILE --line N --offset N [--anchor-line N --anchor-offset N] [--scope SCOPE]\n" ++
  "  locate FILE --line N --offset N [--scope SCOPE] [--json]\n" ++
  "  outline FILE [--json]\n"

variable {m : Type → Type} [Monad m]

/-- The settings to use: those of the named file, which must exist, or else those of the
default file, if that exists. -/
def loadConfig (store : FileStore m) (env : Environment) :
    Option Path → m (Except Failure Config)
  | some path => do
    match ← Config.load store env path with
    | .error fault => return .error (.config fault)
    | .ok none => return .error (.configMissing path)
    | .ok (some c) => return .ok c
  | none => do
    match ← Config.load store env (Config.defaultPath env) with
    | .error fault => return .error (.config fault)
    | .ok c => return .ok (c.getD {})

/-- What an order gives on the content of its file. -/
def perform (config : Config) (order : Order) (content : Except FileFault (List UInt8)) :
    Except Failure (List Char) := do
  let d ← Command.open? order.file content
  let reader : ScriptReader := fun text => ParsedScript.ofText text config.separator
  match order with
  | .run _ caret anchor scope =>
    return (← Command.run reader caret anchor (scope.getD config.scope) d).1
  | .locate _ caret scope json =>
    return Command.locate reader caret (scope.getD config.scope) json d
  | .outline _ json => return Command.outline reader json d

/-- What the program does with an invocation. -/
def invoke (store : FileStore m) (env : Environment) (invocation : Invocation) :
    m Response := do
  match ← loadConfig store env invocation.config with
  | .error failure => return .failed failure
  | .ok config =>
    match perform config invocation.order (← store.read invocation.order.file) with
    | .error failure => return .failed failure
    | .ok output => return .ok output

/-- What the program does with the words after its name. -/
def run (store : FileStore m) (env : Environment) (words : List String) : m Response :=
  match Arguments.read words with
  | .error .help => return .ok helpText.toList
  | .error .version => return .ok versionText.toList
  | .error (.fault fault) => return .misused fault
  | .ok invocation => invoke store env invocation

end Program

end SqlCaret
