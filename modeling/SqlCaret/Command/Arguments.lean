import SqlCaret.Files
import SqlCaret.Scope
import SqlCaret.Point

/-!
# Command — arguments

The words after the program's name.  Flags that hold for every command may stand before or
after the command's name; the others stand after it, in any order with the file.  `--name=value`
and `--name value` are the same, and a value that begins with a dash must be given the first
way.  After `--` every word is a file's name.

`read` goes through the words from left to right and stops at the first that is wrong, so a
request for help that comes before it is still answered.
-/

namespace SqlCaret

namespace Arguments

/-- The flags of all commands. -/
inductive Flag where
  | verbose | config | line | offset | anchorLine | anchorOffset | scope | json | help | version
deriving Repr, DecidableEq

namespace Flag

def name : Flag → String
  | .verbose => "verbose"
  | .config => "config"
  | .line => "line"
  | .offset => "offset"
  | .anchorLine => "anchor-line"
  | .anchorOffset => "anchor-offset"
  | .scope => "scope"
  | .json => "json"
  | .help => "help"
  | .version => "version"

/-- The one-letter name. -/
def letter? : Flag → Option Char
  | .verbose => some 'v'
  | .help => some 'h'
  | .version => some 'V'
  | _ => none

def takesValue : Flag → Bool
  | .verbose | .json | .help | .version => false
  | _ => true

/-- Whether the flag may be given more than once. -/
def repeats : Flag → Bool
  | .verbose => true
  | _ => false

end Flag

/-- The commands. -/
inductive Verb where
  | run | locate | outline
deriving Repr, DecidableEq

namespace Verb

def name : Verb → String
  | .run => "run"
  | .locate => "locate"
  | .outline => "outline"

def ofName? (s : String) : Option Verb := [Verb.run, .locate, .outline].find? (·.name == s)

/-- The flags of a command. -/
def flags : Verb → List Flag
  | .run => [.line, .offset, .anchorLine, .anchorOffset, .scope, .verbose, .config, .help]
  | .locate => [.line, .offset, .scope, .json, .verbose, .config, .help]
  | .outline => [.json, .verbose, .config, .help]

end Verb

/-- The flags in front of the command. -/
def globalFlags : List Flag := [.verbose, .config, .help, .version]

/-- What is wrong with the words. -/
inductive Fault where
  | unknown (word : String)
  | unknownCommand (word : String)
  | noCommand
  | repeated (flag : Flag)
  | noValue (flag : Flag)
  | extraValue (flag : Flag)
  | badValue (flag : Flag) (value : String)
  | emptyFile
  | extraFile (word : String)
  | noFile
  | missing (flag : Flag)
deriving Repr, DecidableEq

def Fault.message : Fault → String
  | .unknown word => "unexpected argument '" ++ word ++ "'"
  | .unknownCommand word => "unrecognized command '" ++ word ++ "'"
  | .noCommand => "a command is required"
  | .repeated flag => "'--" ++ flag.name ++ "' cannot be given more than once"
  | .noValue flag => "'--" ++ flag.name ++ "' needs a value"
  | .extraValue flag => "'--" ++ flag.name ++ "' takes no value"
  | .badValue flag value => "invalid value '" ++ value ++ "' for '--" ++ flag.name ++ "'"
  | .emptyFile => "the file needs a name"
  | .extraFile word => "unexpected argument '" ++ word ++ "'"
  | .noFile => "a file is required"
  | .missing flag => "'--" ++ flag.name ++ "' is required"

/-- Why reading stopped before the end. -/
inductive Stop where
  | fault (fault : Fault)
  | help
  | version
deriving Repr, DecidableEq

/-- The flags and files found so far. -/
structure Found where
  flags : List (Flag × String) := []
  files : List String := []
deriving Repr, DecidableEq

namespace Found

def has (f : Found) (flag : Flag) : Bool := f.flags.any (·.1 == flag)

def value? (f : Found) (flag : Flag) : Option String := f.flags.lookup flag

end Found

/-- A natural number of at most 64 bits: digits, with or without a plus sign. -/
def number? (s : String) : Option Nat :=
  let ds :=
    match s.toList with
    | '+' :: ds => ds
    | ds => ds
  if ds.isEmpty || !ds.all Char.isDigit then none
  else
    let n := ds.foldl (fun n c => n * 10 + (c.toNat - '0'.toNat)) 0
    if n < UInt64.size then some n else none

/-- Whether a flag can have the value. -/
def accepts (flag : Flag) (value : String) : Bool :=
  match flag with
  | .config => !value.isEmpty
  | .scope =>
    match Scope.ofText value with
    | .ok _ => true
    | .error _ => false
  | .line | .offset | .anchorLine | .anchorOffset => (number? value).isSome
  | .verbose | .json | .help | .version => true

/-- With one more flag. -/
def addFlag (flag : Flag) (value : String) (f : Found) : Except Stop Found :=
  match flag with
  | .help => .error .help
  | .version => .error .version
  | _ =>
    if f.has flag && !flag.repeats then .error (.fault (.repeated flag))
    else if !accepts flag value then .error (.fault (.badValue flag value))
    else .ok { f with flags := (flag, value) :: f.flags }

/-- With the flags of the letters after a dash. -/
def addLetters (allowed : List Flag) (word : String) : List Char → Found → Except Stop Found
  | [], f => .ok f
  | c :: cs, f =>
    match allowed.find? (·.letter? == some c) with
    | none => .error (.fault (.unknown word))
    | some flag => do
      let f ← addFlag flag "" f
      addLetters allowed word cs f

/-- A word with its two dashes taken off, cut at the first equals sign. -/
def splitWord (cs : List Char) : String × Option String :=
  let name := cs.takeWhile (· != '=')
  (String.ofList name,
    if name.length < cs.length then some (String.ofList (cs.drop (name.length + 1))) else none)

/-- Whether a word can be the value of the flag before it. -/
def isValue (word : String) : Bool :=
  match word.toList with
  | '-' :: _ :: _ => false
  | _ => true

/-- With one more file. -/
def addFile (word : String) (f : Found) : Except Stop Found :=
  if !f.files.isEmpty then .error (.fault (.extraFile word))
  else if word.isEmpty then .error (.fault .emptyFile)
  else .ok { f with files := [word] }

/-- Reads words with the `allowed` flags.  A word that is no flag is a file; in front of the
command it is the command, and it comes back with the words after it. -/
def readWords (allowed : List Flag) (untilCommand : Bool) :
    List String → Found → Except Stop (Found × List String)
  | [], f => .ok (f, [])
  | word :: words, f =>
    match word.toList with
    | ['-', '-'] =>
      if untilCommand then
        match words with
        | [] => .ok (f, [])
        | w :: _ => .error (.fault (.unknown w))
      else (words.foldlM (fun f w => addFile w f) f).map (·, [])
    | '-' :: '-' :: rest =>
      let (name, value?) := splitWord rest
      match allowed.find? (·.name == name) with
      | none => .error (.fault (.unknown word))
      | some flag =>
        if flag.takesValue then
          match value? with
          | some value => do readWords allowed untilCommand words (← addFlag flag value f)
          | none =>
            match words with
            | [] => .error (.fault (.noValue flag))
            | value :: words =>
              if isValue value then do
                readWords allowed untilCommand words (← addFlag flag value f)
              else .error (.fault (.noValue flag))
        else
          match value? with
          | some _ => .error (.fault (.extraValue flag))
          | none => do readWords allowed untilCommand words (← addFlag flag "" f)
    | '-' :: c :: cs => do
      readWords allowed untilCommand words (← addLetters allowed word (c :: cs) f)
    | _ =>
      if untilCommand then .ok (f, word :: words)
      else do readWords allowed untilCommand words (← addFile word f)

end Arguments

/-- What a user asks of a script file. -/
inductive Order where
  | run (file : Path) (caret : Point) (anchor : Option Point) (scope : Option Scope)
  | locate (file : Path) (caret : Point) (scope : Option Scope) (json : Bool)
  | outline (file : Path) (json : Bool)
deriving Repr, DecidableEq

def Order.file : Order → Path
  | .run file .. | .locate file .. | .outline file _ => file

structure Invocation where
  /-- The file with the settings, if one is named. -/
  config : Option Path
  order : Order
deriving Repr, DecidableEq

namespace Arguments

/-- The value of a flag that must be there. -/
def need (flag : Flag) (f : Found) : Except Stop String :=
  match f.value? flag with
  | some v => .ok v
  | none => .error (.fault (.missing flag))

def needNumber (flag : Flag) (f : Found) : Except Stop Nat := do
  return (number? (← need flag f)).getD 0

def scopeOf (f : Found) : Option Scope :=
  (f.value? .scope).bind fun s => (Scope.ofText s).toOption

/-- The anchor of a selection; neither half of it may be missing alone. -/
def anchorOf (f : Found) : Except Stop (Option Point) :=
  if f.has .anchorLine || f.has .anchorOffset then do
    return some ⟨← needNumber .anchorLine f, ← needNumber .anchorOffset f⟩
  else .ok none

/-- What a command's flags and files ask for. -/
def orderOf (verb : Verb) (f : Found) : Except Stop Order := do
  let file ← match f.files with
    | [] => .error (.fault .noFile)
    | file :: _ => .ok file.toList
  match verb with
  | .run =>
    let caret : Point := ⟨← needNumber .line f, ← needNumber .offset f⟩
    return .run file caret (← anchorOf f) (scopeOf f)
  | .locate =>
    let caret : Point := ⟨← needNumber .line f, ← needNumber .offset f⟩
    return .locate file caret (scopeOf f) (f.has .json)
  | .outline => return .outline file (f.has .json)

/-- What the words ask for.  A file for the settings that is named after the command goes before
one that is named in front of it. -/
def read (words : List String) : Except Stop Invocation := do
  let (before, words) ← readWords globalFlags true words {}
  match words with
  | [] => .error (.fault .noCommand)
  | "help" :: topics =>
    match topics with
    | [] => .error .help
    | [topic] =>
      if topic == "help" || (Verb.ofName? topic).isSome then .error .help
      else .error (.fault (.unknownCommand topic))
    | _ :: topic :: _ => .error (.fault (.unknownCommand topic))
  | name :: words =>
    match Verb.ofName? name with
    | none => .error (.fault (.unknownCommand name))
    | some verb => do
      let (after, _) ← readWords verb.flags false words {}
      let config := (after.value? .config).or (before.value? .config)
      return ⟨config.map String.toList, ← orderOf verb after⟩

end Arguments

end SqlCaret
