import SqlCaret.Proofs.Tree.Rows
import SqlCaret.Statement.OfTree
import SqlCaret.Syntax.Keyword

/-!
# Printed — layout

Scripts as they are printed: statements with the white space between their words.  A `Printed`
is one statement, a `Printed.Row` statements one after the other with white space in front of
each, and a batch is a row without the white space in front of the first.

Each has its text, and what a parse of that text should find there: the syntax tree, and the
statements with their spans.  The grammar cannot give every `ELSE` to the `IF` it was printed
for: it goes to the nearest `IF` that is still open, so an `IF` with an `ELSE` must not end its
first branch with an open one (`Printed.unambiguous`).
-/

namespace SqlCaret

namespace Printed

/-! ### Words -/

/-- The words and signs that are printed. -/
inductive Word where
  | PRINT | BEGIN | END | TRY | CATCH | IF | WHILE | ELSE
  /-- The number `1`. -/
  | one
  /-- The sign `=`. -/
  | equals
  /-- The sign `;`. -/
  | semicolon
deriving Repr, DecidableEq

namespace Word

/-- The characters that are printed. -/
def text : Word → List Char
  | PRINT => ['P', 'R', 'I', 'N', 'T']
  | BEGIN => ['B', 'E', 'G', 'I', 'N']
  | END => ['E', 'N', 'D']
  | TRY => ['T', 'R', 'Y']
  | CATCH => ['C', 'A', 'T', 'C', 'H']
  | IF => ['I', 'F']
  | WHILE => ['W', 'H', 'I', 'L', 'E']
  | ELSE => ['E', 'L', 'S', 'E']
  | one => ['1']
  | equals => ['=']
  | semicolon => [';']

/-- The keyword that it spells. -/
def keyword? : Word → Option Keyword
  | PRINT => some .PRINT
  | BEGIN => some .BEGIN
  | END => some .END
  | TRY => some .TRY
  | CATCH => some .CATCH
  | IF => some .IF
  | WHILE => some .WHILE
  | ELSE => some .ELSE
  | one | equals | semicolon => none

def kind : Word → Kind
  | one => .number
  | equals => .operator
  | semicolon => .semicolon
  | _ => .word

/-- The word as the lexer makes it of the text. -/
def lexeme (w : Word) : Lexeme := ⟨w.kind, w.text⟩

/-- The word as a leaf of a syntax tree. -/
def leaf (w : Word) : SyntaxTree := .leaf w.lexeme

end Word

/-! ### White space -/

/-- Spaces, line ends and closed block comments, one after the other. -/
inductive IsBlank : List Char → Prop where
  | nil : IsBlank []
  | space {c : Char} {cs : List Char} (hc : Lexeme.isSpace c = true) (h : IsBlank cs) :
      IsBlank (c :: cs)
  | line {c : Char} {cs : List Char} (hc : Lexeme.isLineEnd c = true) (h : IsBlank cs) :
      IsBlank (c :: cs)
  /-- A comment; `body` is what stands behind its `/*`, the `*/` included. -/
  | comment {body cs : List Char} (hb : Delimited.comment 1 body = ⟨body.length, true⟩)
      (h : IsBlank cs) : IsBlank ('/' :: '*' :: (body ++ cs))

/-- White space that may be missing. -/
structure Blank where
  text : List Char
  isBlank : IsBlank text

/-- White space between two words. -/
structure Gap extends Blank where
  ne_nil : text ≠ []

/-- Blank lexemes as leaves. -/
def Blank.leaves (b : Blank) : List SyntaxTree := (lexemes b.text).map .leaf

def Blank.size (b : Blank) : Nat := Utf8.size b.text

/-- The white space in `1 = 1` and in front of it. -/
structure Condition where
  before : Gap
  left : Gap
  right : Gap

namespace Condition

def text (c : Condition) : List Char :=
  c.before.text ++ (Word.one.text ++ (c.left.text ++ (Word.equals.text ++
    (c.right.text ++ Word.one.text))))

def trees (c : Condition) : List SyntaxTree :=
  c.before.leaves ++ [.node .condition (Word.one.leaf :: (c.left.leaves ++ (Word.equals.leaf ::
    (c.right.leaves ++ [Word.one.leaf]))))]

end Condition

end Printed

/-! ### Statements -/

mutual

/-- A statement as it is printed. -/
inductive Printed where
  /-- `PRINT 1`, with a semicolon or without. -/
  | simple (gap : Printed.Gap) (semicolon : Option Printed.Blank)
  /-- `BEGIN … END`. -/
  | block (inner : Printed.Row) (last : Printed.Gap)
  /-- `BEGIN TRY … END TRY BEGIN CATCH … END CATCH`. -/
  | tryCatch (tried : Printed.Section) (gap : Printed.Gap) (caught : Printed.Section)
  /-- `IF 1 = 1 …`. -/
  | ifThen (condition : Printed.Condition) (gap : Printed.Gap) (yes : Printed)
  /-- `IF 1 = 1 … ELSE …`. -/
  | ifElse (condition : Printed.Condition) (gap : Printed.Gap) (yes : Printed)
      (before after : Printed.Gap) (no : Printed)
  /-- `WHILE 1 = 1 …`. -/
  | loop (condition : Printed.Condition) (gap : Printed.Gap) (body : Printed)

/-- `BEGIN TRY … END TRY`, or the same with `CATCH`. -/
inductive Printed.Section where
  | mk (opening : Printed.Gap) (inner : Printed.Row) (last closing : Printed.Gap)

/-- Statements one after the other, each with white space in front. -/
inductive Printed.Row where
  | nil
  | cons (gap : Printed.Gap) (first : Printed) (others : Printed.Row)

end

namespace Printed

mutual

def text : Printed → List Char
  | simple gap none => Word.PRINT.text ++ (gap.text ++ Word.one.text)
  | simple gap (some blank) =>
    Word.PRINT.text ++ (gap.text ++ (Word.one.text ++ (blank.text ++ Word.semicolon.text)))
  | block inner last => Word.BEGIN.text ++ (inner.text ++ (last.text ++ Word.END.text))
  | tryCatch tried gap caught =>
    tried.text .TRY ++ (gap.text ++ caught.text .CATCH)
  | ifThen condition gap yes => Word.IF.text ++ (condition.text ++ (gap.text ++ yes.text))
  | ifElse condition gap yes before after no =>
    Word.IF.text ++ (condition.text ++ (gap.text ++ (yes.text ++
      (before.text ++ (Word.ELSE.text ++ (after.text ++ no.text))))))
  | loop condition gap body => Word.WHILE.text ++ (condition.text ++ (gap.text ++ body.text))

/-- The text of the section that `w` names. -/
def Section.text (w : Word) : Section → List Char
  | .mk opening inner last closing =>
    Word.BEGIN.text ++ (opening.text ++ (w.text ++ (inner.text ++
      (last.text ++ (Word.END.text ++ (closing.text ++ w.text))))))

def Row.text : Row → List Char
  | .nil => []
  | .cons gap first others => gap.text ++ (first.text ++ others.text)

end

mutual

/-- The words and signs that are printed, in order. -/
def words : Printed → List Word
  | simple _ none => [.PRINT, .one]
  | simple _ (some _) => [.PRINT, .one, .semicolon]
  | block inner _ => .BEGIN :: (inner.words ++ [.END])
  | tryCatch tried _ caught => tried.words .TRY ++ caught.words .CATCH
  | ifThen _ _ yes => .IF :: .one :: .equals :: .one :: yes.words
  | ifElse _ _ yes _ _ no =>
    .IF :: .one :: .equals :: .one :: (yes.words ++ (.ELSE :: no.words))
  | loop _ _ body => .WHILE :: .one :: .equals :: .one :: body.words

/-- The words of the section that `w` names. -/
def Section.words (w : Word) : Section → List Word
  | .mk _ inner _ _ => .BEGIN :: w :: (inner.words ++ [.END, w])

/-- The words of the statements, one statement after the other. -/
def Row.words : Row → List Word
  | .nil => []
  | .cons _ first others => first.words ++ others.words

end

mutual

/-- The syntax tree of what is printed. -/
def tree : Printed → SyntaxTree
  | simple gap none => .node .statement (Word.PRINT.leaf :: (gap.leaves ++ [Word.one.leaf]))
  | simple gap (some blank) =>
    .node .statement (Word.PRINT.leaf :: (gap.leaves ++ (Word.one.leaf ::
      (blank.leaves ++ [Word.semicolon.leaf]))))
  | block inner last =>
    .node .block (Word.BEGIN.leaf :: (inner.trees ++ (last.leaves ++ [Word.END.leaf])))
  | tryCatch tried gap caught =>
    .node .tryCatch (tried.trees .TRY ++ (gap.leaves ++ caught.trees .CATCH))
  | ifThen condition gap yes =>
    .node .ifStatement (Word.IF.leaf :: (condition.trees ++ (gap.leaves ++ [yes.tree])))
  | ifElse condition gap yes before after no =>
    .node .ifStatement (Word.IF.leaf :: (condition.trees ++ (gap.leaves ++ (yes.tree ::
      (before.leaves ++ [.node .elseClause (Word.ELSE.leaf :: (after.leaves ++ [no.tree]))])))))
  | loop condition gap body =>
    .node .whileStatement (Word.WHILE.leaf :: (condition.trees ++ (gap.leaves ++ [body.tree])))

/-- The trees of the section that `w` names, for a node that holds more than one section. -/
def Section.trees (w : Word) : Section → List SyntaxTree
  | .mk opening inner last closing =>
    Word.BEGIN.leaf :: (opening.leaves ++ (w.leaf :: (inner.trees ++
      (last.leaves ++ (Word.END.leaf :: (closing.leaves ++ [w.leaf]))))))

/-- The trees of the statements with the white space in front of each. -/
def Row.trees : Row → List SyntaxTree
  | .nil => []
  | .cons gap first others => gap.leaves ++ (first.tree :: others.trees)

end

/-- The bytes that are printed. -/
def size (p : Printed) : Nat := Utf8.size p.text

def Section.size (w : Word) (s : Section) : Nat := Utf8.size (s.text w)

def Word.size (w : Word) : Nat := Utf8.size w.text

def Condition.size (c : Condition) : Nat := Utf8.size c.text

section
variable (ix : LineIndex)

mutual

/-- The statement that is printed, from byte `start` on.  Its span is from the first character
printed to the last. -/
def statement (start : Nat) : Printed → Statement
  | simple gap semicolon =>
    .simple (Statement.spanOf ix start (simple gap semicolon).size)
  | block inner last =>
    .block (Statement.spanOf ix start (block inner last).size)
      (inner.statements (start + Word.BEGIN.size))
  | tryCatch tried gap caught =>
    .block (Statement.spanOf ix start (tryCatch tried gap caught).size)
      (tried.statements .TRY start ++
        caught.statements .CATCH (start + tried.size .TRY + gap.size))
  | ifThen condition gap yes =>
    .conditional (Statement.spanOf ix start (ifThen condition gap yes).size)
      (some (yes.statement (start + Word.IF.size + condition.size + gap.size))) none
  | ifElse condition gap yes before after no =>
    .conditional (Statement.spanOf ix start (ifElse condition gap yes before after no).size)
      (some (yes.statement (start + Word.IF.size + condition.size + gap.size)))
      (some (no.statement (start + Word.IF.size + condition.size + gap.size + yes.size +
        before.size + Word.ELSE.size + after.size)))
  | loop condition gap body =>
    .loop (Statement.spanOf ix start (loop condition gap body).size)
      (body.statement (start + Word.WHILE.size + condition.size + gap.size))

/-- The statements inside the section, which itself starts at byte `start`. -/
def Section.statements (w : Word) (start : Nat) : Section → List Statement
  | .mk opening inner _ _ =>
    inner.statements (start + Word.BEGIN.size + opening.size + w.size)

/-- The statements of the row, the white space in front of each counted. -/
def Row.statements (start : Nat) : Row → List Statement
  | .nil => []
  | .cons gap first others =>
    first.statement (start + gap.size) ::
      others.statements (start + gap.size + first.size)

end

end

/-- Whether an `ELSE` behind the statement would be taken by an `IF` at its end. -/
def isOpen : Printed → Bool
  | ifThen _ _ _ => true
  | ifElse _ _ _ _ _ no => no.isOpen
  | loop _ _ body => body.isOpen
  | _ => false

mutual

/-- Whether every `ELSE` stands where it goes to the `IF` that it was printed for. -/
def unambiguous : Printed → Bool
  | simple _ _ => true
  | block inner _ => inner.unambiguous
  | tryCatch tried _ caught => tried.unambiguous && caught.unambiguous
  | ifThen _ _ yes => yes.unambiguous
  | ifElse _ _ yes _ _ no => !yes.isOpen && yes.unambiguous && no.unambiguous
  | loop _ _ body => body.unambiguous

/-- Whether it holds of what is inside; `END` stands behind it, so nothing is taken from outside. -/
def Section.unambiguous : Section → Bool
  | .mk _ inner _ _ => inner.unambiguous

/-- Whether it holds of each statement; no `ELSE` stands between two of them. -/
def Row.unambiguous : Row → Bool
  | .nil => true
  | .cons _ first others => first.unambiguous && others.unambiguous

end

/-! ### Scripts -/

/-- The statements between two separator lines, without white space at either end. -/
inductive Batch where
  | empty
  | some (first : Printed) (others : Row)

namespace Batch

def text : Batch → List Char
  | empty => []
  | some first others => first.text ++ others.text

def words : Batch → List Word
  | empty => []
  | some first others => first.words ++ others.words

def trees : Batch → List SyntaxTree
  | empty => []
  | some first others => first.tree :: others.trees

def statements (ix : LineIndex) (start : Nat) : Batch → List Statement
  | empty => []
  | some first others =>
    first.statement ix start :: others.statements ix (start + first.size)

def unambiguous : Batch → Bool
  | empty => true
  | some first others => first.unambiguous && others.unambiguous

end Batch

/-- A line with the separator alone, and the end of the line before. -/
def goLine : List Char := ['\n', 'G', 'O', '\n']

/-- The text of batches with a separator line between each two. -/
def scriptText (bs : List Batch) : List Char := goLine.intercalate (bs.map Batch.text)

/-- The statements of batches of which the first starts at byte `start`. -/
def scriptStatements (ix : LineIndex) (start : Nat) : List Batch → List (List Statement)
  | [] => []
  | b :: bs =>
    b.statements ix start ::
      scriptStatements ix (start + Utf8.size b.text + Utf8.size goLine) bs

end Printed

end SqlCaret
