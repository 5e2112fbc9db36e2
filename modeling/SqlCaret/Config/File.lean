import SqlCaret.Config
import SqlCaret.Files.Expand
import SqlCaret.Text.Quoted

/-!
# Config — file

Settings in a file.  Reading puts variables and the home folder into the path, and a file that
does not exist is no fault; writing takes the path as it is and makes the folder of the file
first.
-/

namespace SqlCaret.Config

/-- Why a file gives no settings. -/
inductive Fault where
  | unreadable (path : Path) (reason : String)
  /-- The text is no TOML, or a setting has the wrong type. -/
  | malformed (path : Path)
  | badSeparator (separator : List Char) (path : Path)
deriving Repr, DecidableEq

namespace Fault

def message : Fault → String
  | .unreadable path reason =>
    "Failed to read config file at " ++ String.ofList path ++ ": " ++ reason
  | .malformed path => "Failed to parse config file at " ++ String.ofList path
  | .badSeparator separator path =>
    "Invalid batch separator " ++ String.ofList (Quoted.quote separator) ++ " in " ++
      String.ofList path ++ ": must be a single word"

/-- What lies behind a fault. -/
def cause? : Fault → Option String
  | .unreadable _ reason => some reason
  | .malformed _ | .badSeparator .. => none

end Fault

/-- The settings that the content of a file gives; the path is for messages. -/
def ofBytes (path : Path) (bytes : List UInt8) : Except Fault Config :=
  match Utf8.decode bytes with
  | .error _ => .error (.unreadable path "stream did not contain valid UTF-8")
  | .ok text =>
    match ofToml? text with
    | none => .error (.malformed path)
    | some c =>
      match c.check? with
      | none => .error (.badSeparator c.separator path)
      | some c => .ok c

/-- The settings in a file, if there is such a file. -/
def load {m : Type → Type} [Monad m] (store : FileStore m) (env : Environment) (path : Path) :
    m (Except Fault (Option Config)) := do
  let path := Path.expand env path
  match ← store.read path with
  | .ok bytes => return (ofBytes path bytes).map some
  | .error fault =>
    if fault.isAbsence then return .ok none
    else return .error (.unreadable path fault.message)

/-- Where settings are when no path is given. -/
def defaultPath (env : Environment) : Path :=
  Path.expandHome env "~/.config/sql-executor".toList ++ "/config.toml".toList

/-- A tree with the settings in a file. -/
def save (t : FileTree) (path : Path) (c : Config) : Except FileFault FileTree := do
  let t ← t.makeParent path
  t.write path (Utf8.encode c.toToml)

end SqlCaret.Config
