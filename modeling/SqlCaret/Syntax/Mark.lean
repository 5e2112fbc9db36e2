import SqlCaret.Syntax.Keyword
import SqlCaret.Syntax.Token

/-!
# Syntax — marks

All that the grammar knows of a token.  A mark holds the token's kind, the keyword it spells,
whether it spells the batch separator, and how it stands on its line.  White space and comments
have no mark; what they do to the layout is kept in the mark of the token after them.

So two scripts with the same marks have the same structure, whatever their literals, names,
comments and letter case.
-/

namespace SqlCaret

structure Mark where
  kind : Kind
  /-- The keyword that a word spells. -/
  keyword : Option Keyword
  /-- Whether a word spells the batch separator. -/
  separates : Bool
  /-- Whether only white space stands between the token and the last line ending before it.  A
  comment in between, even one that spans lines, makes this false. -/
  opensLine : Bool
  /-- Whether a line ends between this token and the one before. -/
  afterBreak : Bool
deriving Repr, DecidableEq

namespace Mark

/-- Whether a text has a line ending in it. -/
def hasBreak (text : List Char) : Bool := text.any fun c => c == '\n' || c == '\r'

/-- The mark of a lexeme that stands as given on its line. -/
def ofLexeme (separator : List Char) (opensLine afterBreak : Bool) (l : Lexeme) : Mark where
  kind := l.kind
  keyword := if l.kind = .word then Keyword.ofWord? l.text else none
  separates := l.kind == .word && Letters.same l.text separator
  opensLine := opensLine
  afterBreak := afterBreak

/-- The marks of lexemes of which the first stands as given on its line. -/
def read (separator : List Char) (opensLine afterBreak : Bool) : List Lexeme → List Mark
  | [] => []
  | l :: ls =>
    if l.kind.isTrivia then
      let opensLine :=
        match l.kind with
        | .newline => true
        | .whitespace => opensLine
        | _ => false
      read separator opensLine (afterBreak || hasBreak l.text) ls
    else ofLexeme separator opensLine afterBreak l :: read separator false false ls

/-- The marks of the lexemes of a text.  The start of the text counts as the start of a
line. -/
def ofLexemes (separator : List Char) (ls : List Lexeme) : List Mark :=
  read separator true true ls

/-- There is one mark for each significant lexeme, of its kind. -/
theorem map_kind_read (separator : List Char) (o b : Bool) (ls : List Lexeme) :
    (read separator o b ls).map (·.kind) =
      (ls.filter (!·.kind.isTrivia)).map (·.kind) := by
  induction ls generalizing o b with
  | nil => rfl
  | cons l ls ih =>
    by_cases h : l.kind.isTrivia = true
    · simp [read, h, ih]
    · simp [read, h, ih, ofLexeme]

end Mark

end SqlCaret
