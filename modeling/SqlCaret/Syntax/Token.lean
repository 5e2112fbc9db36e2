import SqlCaret.Syntax.Kind
import SqlCaret.Text.Utf8

/-!
# Syntax — tokens

A lexeme is a piece of text with its kind; a token is a lexeme with the byte offset it starts
at.  `Token.place` lays lexemes end to end: it changes neither their number nor their order
nor their text, and only adds the offsets.
-/

namespace SqlCaret

structure Lexeme where
  kind : Kind
  text : List Char
deriving Repr, DecidableEq

structure Token extends Lexeme where
  /-- Byte offset of the first character. -/
  offset : Nat
deriving Repr, DecidableEq

namespace Token

/-- Byte offset just past the last character. -/
def stop (t : Token) : Nat := t.offset + Utf8.size t.text

def isTrivia (t : Token) : Bool := t.kind.isTrivia

/-- The tokens that lexemes make when the first starts at byte `start`. -/
def place (start : Nat) : List Lexeme → List Token
  | [] => []
  | l :: ls => ⟨l, start⟩ :: place (start + Utf8.size l.text) ls

@[simp] theorem map_toLexeme_place (start : Nat) (ls : List Lexeme) :
    (place start ls).map Token.toLexeme = ls := by
  induction ls generalizing start with
  | nil => rfl
  | cons l ls ih => simp [place, ih]

@[simp] theorem length_place (start : Nat) (ls : List Lexeme) :
    (place start ls).length = ls.length := by
  rw [← List.length_map (f := Token.toLexeme), map_toLexeme_place]

/-- The tokens that are no trivia. -/
def significant (ts : List Token) : List Token := ts.filter (!·.isTrivia)

/-- The byte offset just past the last token, zero if there is none. -/
def finalStop (ts : List Token) : Nat := (ts.getLast?.map stop).getD 0

/-- Where the significant token starts that has `index` others before it; past the last one
that is the end of the text. -/
def offsetAt (ts : List Token) (index : Nat) : Nat :=
  match (significant ts)[index]? with
  | some t => t.offset
  | none => finalStop ts

end Token

end SqlCaret
