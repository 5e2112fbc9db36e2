import SqlCaret.Syntax.Cursor

/-!
# Syntax — cursor — tokens

The tokens that a cursor stands among.  Marks have no text, so to see the text around a cursor
the tokens of the script are looked up by how many significant ones have been passed.
-/

namespace SqlCaret

/-- Whether a token is this word, in any letter case. -/
def Token.isWord (word : List Char) (t : Token) : Bool :=
  t.kind == .word && Letters.same t.text word

namespace Cursor

variable (ts : List Token)

/-- The `n`-th significant token ahead. -/
def token? (c : Cursor) (n : Nat) : Option Token := (Token.significant ts)[c.index + n]?

/-- The text of the `n`-th significant token ahead, empty past the end. -/
def text (c : Cursor) (n : Nat) : List Char := ((c.token? ts n).map (·.text)).getD []

/-- Whether the `n`-th significant token ahead is one of these words. -/
def isWord (c : Cursor) (n : Nat) (words : List (List Char)) : Bool :=
  match c.token? ts n with
  | some t => words.any (t.isWord ·)
  | none => false

/-- The significant token just passed. -/
def prevToken? (c : Cursor) : Option Token :=
  if c.index = 0 then none else (Token.significant ts)[c.index - 1]?

/-- Whether the significant token just passed is one of these words. -/
def prevIsWord (c : Cursor) (words : List (List Char)) : Bool :=
  match c.prevToken? ts with
  | some t => words.any (t.isWord ·)
  | none => false

/-- The byte offset of the token ahead, or of the end of the text. -/
def offset (c : Cursor) : Nat := Token.offsetAt ts c.index

end Cursor

end SqlCaret
