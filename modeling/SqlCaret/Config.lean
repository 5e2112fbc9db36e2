import SqlCaret.Scope
import SqlCaret.Syntax.Parse
import SqlCaret.Toml.Read

/-!
# Config

What a user can settle in a file: the scope, the word that separates batches and the log level.
A setting that is missing has its default; settings with other names do not count.

The separator loses the blanks around it and must then be a word: some characters and no blank
among them.  `Config.check` refuses any other; `ofToml?` and `toToml` are the two directions
between settings and the text of a file.
-/

namespace SqlCaret

structure Config where
  scope : Scope := .block
  separator : List Char := defaultSeparator
  logLevel : Option (List Char) := none
deriving Repr, DecidableEq

namespace Config

/-- A setting that must be a string; it may be missing. -/
def text? (key : String) (es : Toml.Entries) : Option (Option (List Char)) :=
  match Toml.find? key.toList es with
  | none => some none
  | some (.string s) => some (some s)
  | some _ => none

/-- A scope is its name, or a table whose one entry has that name and is empty. -/
def scopeOf? : Toml → Option Scope
  | .string s => Scope.ofName? (String.ofList s)
  | .table _ [(name, .table _ [])] | .table _ [(name, .array [])] =>
    Scope.ofName? (String.ofList name)
  | _ => none

/-- The settings in a table, the separator as it is written. -/
def ofEntries? (es : Toml.Entries) : Option Config := do
  let scope ← match Toml.find? "scope".toList es with
    | none => some .block
    | some v => scopeOf? v
  let separator ← text? "batch_separator" es
  let logLevel ← text? "log_level" es
  return ⟨scope, separator.getD defaultSeparator, logLevel⟩

/-- The settings that a text describes, the separator as it is written. -/
def ofToml? (text : List Char) : Option Config := do ofEntries? (← Toml.read? text)

/-- A line with a setting. -/
def setting (key : String) (value : List Char) : List Char :=
  (key ++ " = ").toList ++ Toml.write value ++ ['\n']

/-- The text that describes settings. -/
def toToml (c : Config) : List Char :=
  setting "scope" c.scope.name.toList ++ setting "batch_separator" c.separator ++
    (c.logLevel.map (setting "log_level")).getD []

/-- Whether a text can be a separator. -/
def isWord (cs : List Char) : Bool := !cs.isEmpty && !cs.any Blank.isBlank

/-- With the blanks around the separator taken off; none if what is left is no word. -/
def check? (c : Config) : Option Config :=
  let separator := Blank.trim c.separator
  if isWord separator then some { c with separator := separator } else none

end Config

end SqlCaret
