import SqlCaret.Syntax.Token
import SqlCaret.Syntax.Token.Delimited

/-!
# Syntax — tokens — scan

Cutting a text into tokens.  At every character the longest token that can start there is
taken; a character that starts none is a token by itself, so nothing is ever left out.

`extent` answers, for one character and the text after it, the kind of the token and how many
of the following characters belong to it.  `lexemes` applies it again and again, and `tokenize`
adds the offsets.
-/

namespace SqlCaret

namespace Lexeme

/-- Spaces, tabs, vertical tabs and form feeds. -/
def isSpace (c : Char) : Bool := c == ' ' || c == '\t' || c == '\x0b' || c == '\x0c'

def isLineEnd (c : Char) : Bool := c == '\n' || c == '\r'

def isHexDigit (c : Char) : Bool :=
  c.isDigit || ('a' ≤ c && c ≤ 'f') || ('A' ≤ c && c ≤ 'F')

/-- Whether a word can begin with `c`. -/
def isWordStart (c : Char) : Bool :=
  c.isAlpha || c == '_' || c == '@' || c == '#' || 0x80 ≤ c.toNat

/-- Whether a word can go on with `c`. -/
def isWordPart (c : Char) : Bool := isWordStart c || c.isDigit || c == '$'

def isOperator (c : Char) : Bool := "-+*/%=<>!&|^~:".toList.contains c

/-- How many characters satisfy `p` before the first that does not. -/
def run (p : Char → Bool) (cs : List Char) : Nat := (cs.takeWhile p).length

/-- The length of an exponent such as `e-5`; zero when the text starts with none. -/
def exponent : List Char → Nat
  | e :: cs =>
    if e = 'e' ∨ e = 'E' then
      let signs := if cs.head? = some '+' ∨ cs.head? = some '-' then 1 else 0
      let digits := run Char.isDigit (cs.drop signs)
      if digits = 0 then 0 else 1 + signs + digits
    else 0
  | [] => 0

/-- The length of what continues a number after its integer digits. -/
def fraction : List Char → Nat
  | '.' :: cs =>
    let digits := run Char.isDigit cs
    1 + digits + exponent (cs.drop digits)
  | cs => exponent cs

/-- The length of what continues a number that starts with the digit `c`. -/
def number (c : Char) (cs : List Char) : Nat :=
  let hex := c = '0' ∧ (cs.head? = some 'x' ∨ cs.head? = some 'X')
  if hex then 1 + run isHexDigit (cs.drop 1)
  else
    let digits := run Char.isDigit cs
    digits + fraction (cs.drop digits)

/-- A quoted text of kind `closed`, or `unclosed` if it never ends, whose opening delimiter
stands `skipped` characters into `cs`. -/
def quoted (close : Char) (closed unclosed : Kind) (skipped : Nat) (cs : List Char) :
    Kind × Nat :=
  let e := Delimited.quoted close (cs.drop skipped)
  (if e.closed then closed else unclosed, skipped + e.length)

/-- The kind of the token that starts with `c`, and how many of the characters `cs` that
follow belong to it. -/
def extent (c : Char) (cs : List Char) : Kind × Nat :=
  let next := cs.head?
  if isSpace c then (.whitespace, run isSpace cs)
  else if c = '\n' then (.newline, 0)
  else if c = '\r' then (.newline, if next = some '\n' then 1 else 0)
  else if c = '-' ∧ next = some '-' then (.lineComment, run (!isLineEnd ·) cs)
  else if c = '/' ∧ next = some '*' then
    let e := Delimited.comment 1 (cs.drop 1)
    (if e.closed then .blockComment else .unterminatedComment, 1 + e.length)
  else if c = '\'' then quoted '\'' .string .unterminatedString 0 cs
  else if (c = 'n' ∨ c = 'N') ∧ next = some '\'' then
    quoted '\'' .string .unterminatedString 1 cs
  else if c = '[' then quoted ']' .quotedIdent .unterminatedIdent 0 cs
  else if c = '"' then quoted '"' .quotedIdent .unterminatedIdent 0 cs
  else if c.isDigit then (.number, number c cs)
  else if c = '.' then
    let digits := run Char.isDigit cs
    if digits = 0 then (.dot, 0) else (.number, digits + exponent (cs.drop digits))
  else if isWordStart c then (.word, run isWordPart cs)
  else if c = ';' then (.semicolon, 0)
  else if c = '(' then (.leftParen, 0)
  else if c = ')' then (.rightParen, 0)
  else if c = ',' then (.comma, 0)
  else if isOperator c then (.operator, 0)
  else (.unknown, 0)

/-- The lexemes of a text whose first `skipped` characters belong to a token already taken. -/
def scan : (skipped : Nat) → List Char → List Lexeme
  | _, [] => []
  | n + 1, _ :: cs => scan n cs
  | 0, c :: cs =>
    let e := extent c cs
    ⟨e.1, c :: cs.take e.2⟩ :: scan e.2 cs

end Lexeme

/-- The lexemes of a text, none left out. -/
def lexemes (text : List Char) : List Lexeme := Lexeme.scan 0 text

/-- The tokens of a text. -/
def tokenize (text : List Char) : List Token := Token.place 0 (lexemes text)

namespace Lexeme

theorem scan_eq_drop (n : Nat) (cs : List Char) : scan n cs = scan 0 (cs.drop n) := by
  induction cs generalizing n with
  | nil => cases n <;> simp [scan]
  | cons c cs ih =>
    cases n with
    | zero => rfl
    | succ n => simpa [scan] using ih n

/-- A token and what follows it make up the text. -/
theorem scan_cons (c : Char) (cs : List Char) :
    scan 0 (c :: cs) =
      ⟨(extent c cs).1, c :: cs.take (extent c cs).2⟩ :: lexemes (cs.drop (extent c cs).2) := by
  simp [scan, lexemes, scan_eq_drop]

/-- Nothing of the text is left out, and nothing is taken twice. -/
theorem flatMap_text_scan (n : Nat) (cs : List Char) :
    (scan n cs).flatMap (·.text) = cs.drop n := by
  induction cs generalizing n with
  | nil => cases n <;> rfl
  | cons c cs ih =>
    cases n with
    | zero => simp [scan, ih, List.take_append_drop]
    | succ n => simpa [scan] using ih n

end Lexeme

end SqlCaret
