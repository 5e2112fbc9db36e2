import SqlCaret.Syntax.Mark

/-!
# Syntax — cursor

A place between two marks: the mark before, the marks ahead and how many have been passed.
Past the last mark every question has an answer too: the kind there is `endOfFile`, no keyword
is there, and the end of the text counts as the start of a line.
-/

namespace SqlCaret

structure Cursor where
  prev : Option Mark
  ahead : List Mark
  /-- How many marks have been passed. -/
  index : Nat
deriving Repr, DecidableEq

namespace Cursor

/-- In front of the first of `marks`. -/
def ofMarks (marks : List Mark) : Cursor := ⟨none, marks, 0⟩

def atEnd (c : Cursor) : Bool := c.ahead.isEmpty

/-- The kind of the `n`-th mark ahead. -/
def kind (c : Cursor) (n : Nat) : Kind :=
  match c.ahead[n]? with
  | some m => m.kind
  | none => .endOfFile

def atKind (c : Cursor) (k : Kind) : Bool := c.kind 0 == k

/-- The keyword that the `n`-th mark ahead spells. -/
def keyword? (c : Cursor) (n : Nat) : Option Keyword := c.ahead[n]?.bind (·.keyword)

def isKeyword (c : Cursor) (n : Nat) (k : Keyword) : Bool := c.keyword? n == some k

/-- Whether the `n`-th mark ahead spells one of `ks`. -/
def isAny (c : Cursor) (n : Nat) (ks : List Keyword) : Bool :=
  match c.keyword? n with
  | some k => ks.contains k
  | none => false

def atKeyword (c : Cursor) (k : Keyword) : Bool := c.isKeyword 0 k

/-- The kind of the mark just passed. -/
def prevKind (c : Cursor) : Kind :=
  match c.prev with
  | some m => m.kind
  | none => .endOfFile

/-- Whether the mark just passed spells one of `ks`. -/
def prevIsAny (c : Cursor) (ks : List Keyword) : Bool :=
  match c.prev.bind (·.keyword) with
  | some k => ks.contains k
  | none => false

/-- Whether the `n`-th mark ahead is the first thing on its line. -/
def opensLine (c : Cursor) (n : Nat) : Bool :=
  match c.ahead[n]? with
  | some m => m.opensLine
  | none => true

/-- Whether a line ends right before the `n`-th mark ahead. -/
def afterBreak (c : Cursor) (n : Nat) : Bool :=
  match c.ahead[n]? with
  | some m => m.afterBreak
  | none => true

/-- Whether the mark ahead spells the separator. -/
def spellsSeparator (c : Cursor) : Bool :=
  match c.ahead with
  | m :: _ => m.separates
  | [] => false

/-- Whether a separator line starts here: the separator alone on its line, or with a repeat
count after it. -/
def atSeparator (c : Cursor) : Bool :=
  c.spellsSeparator && c.opensLine 0 &&
    (c.afterBreak 1 || (c.kind 1 == .number && c.afterBreak 2))

/-- Whether the batch ends here. -/
def atBatchEnd (c : Cursor) : Bool := c.atEnd || c.atSeparator

/-- Past the next mark, if there is one. -/
def advance (c : Cursor) : Cursor :=
  match c.ahead with
  | m :: ms => ⟨some m, ms, c.index + 1⟩
  | [] => c

end Cursor

end SqlCaret
