import SqlCaret.Files
import SqlCaret.Text.Alphanumeric

/-!
# Files — expand

Variables and the home folder in a path.  `$NAME` and `${NAME}` stand for a variable, with
`${NAME:-text}` for `text` where there is none, and `$$` stands for a dollar.  Without braces a
name goes on for as long as there are letters, digits and underscores, of any script.  A `~` in
front, alone or before a slash, stands for the home folder, unless a variable brought it there.
A variable that does not exist makes the whole path stay as it is.
-/

namespace SqlCaret

/-- What a path can refer to. -/
structure Environment where
  home : Option Path
  /-- The value of a variable. -/
  valueOf : List Char → Option (List Char)

namespace Path

/-- Whether a variable's name can have the character in it. -/
def isNameChar (c : Char) : Bool := Alphanumeric.isAlphanumeric c || c == '_'

/-- The text before the first `:-` and the text after it. -/
def splitDefault : List Char → Option (List Char × List Char)
  | ':' :: '-' :: cs => some ([], cs)
  | c :: cs => (splitDefault cs).map fun r => (c :: r.1, r.2)
  | [] => none

/-- What stands for the text between `${` and `}`. -/
def expandBraced (env : Environment) (inside : List Char) : Option (List Char) :=
  match splitDefault inside with
  | some (name@(_ :: _), text) => some ((env.valueOf name).getD text)
  | _ => env.valueOf inside

/-- A path with its variables put in; none if one does not exist.  `fuel` bounds the
characters. -/
def expandVariables (env : Environment) : (fuel : Nat) → Path → Option Path
  | 0, cs => some cs
  | _ + 1, [] => some []
  | n + 1, '$' :: '\x7b' :: cs =>
    if cs.contains '\x7d' then do
      let value ← expandBraced env (cs.takeWhile (· != '\x7d'))
      let rest ← expandVariables env n ((cs.dropWhile (· != '\x7d')).drop 1)
      return value ++ rest
    else (expandVariables env n cs).map fun rest => '$' :: '\x7b' :: rest
  | n + 1, '$' :: '$' :: cs => (expandVariables env n cs).map ('$' :: ·)
  | n + 1, '$' :: cs =>
    let name := cs.takeWhile isNameChar
    if name.isEmpty then (expandVariables env n cs).map ('$' :: ·)
    else do
      let value ← env.valueOf name
      let rest ← expandVariables env n (cs.dropWhile isNameChar)
      return value ++ rest
  | n + 1, c :: cs => (expandVariables env n cs).map (c :: ·)

/-- A path with the home folder for its `~`. -/
def expandHome (env : Environment) (p : Path) : Path :=
  match p, env.home with
  | ['~'], some home => home
  | '~' :: '/' :: cs, some home => home ++ '/' :: cs
  | _, _ => p

/-- A path with variables and home folder put in, or as it is. -/
def expand (env : Environment) (p : Path) : Path :=
  match expandVariables env p.length p with
  | none => p
  | some q => if p.head? == some '~' then expandHome env q else q

end Path

end SqlCaret
