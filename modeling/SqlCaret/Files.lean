import SqlCaret.Text.Utf8

/-!
# Files

A tree of files and folders and the paths into it.  A path is read one name at a time: an empty
name and `.` stay, `..` goes up, and every other name must be in the folder that was reached.
So a path that goes on behind a file leads nowhere, a closing slash included.

`FileStore` is what a program needs of a file system, over any monad; `FileTree` is a file
system that is a value.
-/

namespace SqlCaret

/-- A path as it is written. -/
abbrev Path := List Char

/-- The names from the root to a file or folder. -/
abbrev Place := List (List Char)

/-- Why a file cannot be read or written. -/
inductive FileFault where
  | notFound
  /-- Something on the way is a file. -/
  | notFolder
  | isFolder
  | nameTooLong
  /-- The path has a NUL character. -/
  | badName
  | other (message : String)
deriving Repr, DecidableEq

namespace FileFault

def message : FileFault → String
  | .notFound => "No such file or directory (os error 2)"
  | .notFolder => "Not a directory (os error 20)"
  | .isFolder => "Is a directory (os error 21)"
  | .nameTooLong => "File name too long (os error 36)"
  | .badName => "file name contained an unexpected NUL byte"
  | .other message => message

/-- Whether the fault says that nothing is there. -/
def isAbsence : FileFault → Bool
  | .notFound | .notFolder | .nameTooLong | .badName => true
  | .isFolder | .other _ => false

end FileFault

namespace Path

/-- The names between the slashes of a path, empty ones included. -/
def names : Path → List (List Char)
  | [] => [[]]
  | c :: cs =>
    if c = '/' then [] :: names cs
    else
      match names cs with
      | [] => [[c]]
      | n :: ns => (c :: n) :: ns

def isAbsolute (p : Path) : Bool := p.head? == some '/'

/-- A place as an absolute path. -/
def ofPlace (pl : Place) : Path := pl.flatMap ('/' :: ·)

/-- Whether a path is too long to be looked up. -/
def isTooLong (p : Path) : Bool := Utf8.size p ≥ 4096

/-- Whether a name is too long for a file or folder. -/
def isLongName (name : List Char) : Bool := Utf8.size name > 255

end Path

/-- A file system that only reads. -/
structure FileStore (m : Type → Type) where
  read : Path → m (Except FileFault (List UInt8))

structure FileTree where
  /-- The folder that relative paths start at. -/
  here : Place
  files : List (Place × List UInt8)
  /-- Folders that need not have a file in them. -/
  folders : List Place
deriving Repr

namespace FileTree

/-- An empty tree seen from the folder `here`. -/
def empty (here : Place) : FileTree := ⟨here, [], [here]⟩

def file? (t : FileTree) (pl : Place) : Option (List UInt8) :=
  (t.files.find? (·.1 == pl)).map (·.2)

/-- Whether there is a folder: one that was made, or one with something in it. -/
def hasFolder (t : FileTree) (pl : Place) : Bool :=
  pl.isEmpty || t.folders.any (pl.isPrefixOf ·) ||
    t.files.any fun f => pl.isPrefixOf f.1.dropLast

/-- Where the names of a path lead from a place. -/
def follow (t : FileTree) (pl : Place) : List (List Char) → Except FileFault Place
  | [] => .ok pl
  | n :: ns =>
    if (t.file? pl).isSome then .error .notFolder
    else if !t.hasFolder pl then .error .notFound
    else if n = [] ∨ n = ['.'] then follow t pl ns
    else if n = ['.', '.'] then follow t pl.dropLast ns
    else if Path.isLongName n then .error .nameTooLong
    else follow t (pl ++ [n]) ns

/-- Where a path leads, whether or not anything is there. -/
def resolve (t : FileTree) (p : Path) : Except FileFault Place :=
  if p.isEmpty then .error .notFound
  else if p.contains '\x00' then .error .badName
  else if Path.isTooLong p then .error .nameTooLong
  else t.follow (if Path.isAbsolute p then [] else t.here) (Path.names p)

/-- The content of a file. -/
def read (t : FileTree) (p : Path) : Except FileFault (List UInt8) := do
  let pl ← t.resolve p
  match t.file? pl with
  | some content => .ok content
  | none => .error (if t.hasFolder pl then .isFolder else .notFound)

/-- With a file of this content, in place of one that was there. -/
def put (t : FileTree) (pl : Place) (content : List UInt8) : FileTree :=
  { t with files := (pl, content) :: t.files.filter (·.1 != pl) }

/-- Writes a file into a folder that is there. -/
def write (t : FileTree) (p : Path) (content : List UInt8) : Except FileFault FileTree := do
  let pl ← t.resolve p
  if t.hasFolder pl then .error .isFolder else .ok (t.put pl content)

/-- Makes the folders that names lead through from a place. -/
def makeFolders (t : FileTree) (pl : Place) : List (List Char) → Except FileFault FileTree
  | [] => .ok t
  | n :: ns =>
    if n = [] ∨ n = ['.'] then makeFolders t pl ns
    else if n = ['.', '.'] then makeFolders t pl.dropLast ns
    else
      let pl := pl ++ [n]
      if (t.file? pl).isSome then .error .notFolder
      else makeFolders { t with folders := pl :: t.folders } pl ns

/-- The names of a path that are not empty, which a closing slash or dot adds nothing to. -/
def ownNames (p : Path) : List (List Char) :=
  (Path.names p).filter fun n => n ≠ [] ∧ n ≠ ['.']

/-- Makes the folder that a path's file is to be in. -/
def makeParent (t : FileTree) (p : Path) : Except FileFault FileTree :=
  let parents := (ownNames p).dropLast
  if parents.isEmpty then .ok t
  else if p.contains '\x00' then .error .badName
  else if parents.any Path.isLongName then .error .nameTooLong
  else t.makeFolders (if Path.isAbsolute p then [] else t.here) parents

/-- A tree as a file system. -/
def store (t : FileTree) : FileStore Id where
  read p := t.read p

end FileTree

end SqlCaret
