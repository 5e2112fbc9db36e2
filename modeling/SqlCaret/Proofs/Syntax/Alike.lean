import Mathlib.Data.List.Forall2
import SqlCaret.Proofs.Parse.Lossless

/-!
# Syntax — alike

What the grammar sees of a lexeme: its kind, of a word which word it is in any letter case, and of
white space and comments whether a line ends in them.  Lexemes that agree in that are `Alike`, and
alike in pairs they have the same marks (`Mark.read_congr`).  The separator too counts only in any
letter case.
-/

namespace SqlCaret

/-- Lexemes that the grammar cannot tell apart. -/
structure Lexeme.Alike (l l' : Lexeme) : Prop where
  kind : l.kind = l'.kind
  word : l.kind = .word → Letters.fold l.text = Letters.fold l'.text
  breaks : l.kind.isTrivia = true → Mark.hasBreak l.text = Mark.hasBreak l'.text

/-- Lexemes of the same kind in pairs. -/
theorem Lexeme.map_kind_eq {R : Lexeme → Lexeme → Prop} (hkind : ∀ l l', R l l' → l.kind = l'.kind)
    {ls ls' : List Lexeme} (h : List.Forall₂ R ls ls') : ls.map (·.kind) = ls'.map (·.kind) := by
  induction h with
  | nil => rfl
  | cons h _ ih => rw [List.map_cons, List.map_cons, hkind _ _ h, ih]

namespace Mark

variable {separator separator' : List Char}

theorem ofLexeme_congr (hs : Letters.fold separator = Letters.fold separator') {l l' : Lexeme}
    (h : l.Alike l') (o b : Bool) : ofLexeme separator o b l = ofLexeme separator' o b l' := by
  by_cases hword : l.kind = .word
  · have hword' : l'.kind = .word := h.kind ▸ hword
    have hsame : Letters.same l.text separator = Letters.same l'.text separator' := by
      rw [Letters.same, Letters.same, h.word hword, hs]
    simp only [ofLexeme, hword, hword', Keyword.ofWord?_congr (h.word hword), hsame]
  · have hword' : l'.kind ≠ .word := h.kind ▸ hword
    have hbeq : (l'.kind == .word) = false := by simpa using hword'
    simp only [ofLexeme, h.kind, if_neg hword', hbeq, Bool.false_and]

/-- **Lexemes that are alike have the same marks**, also when the separator is written in another
letter case. -/
theorem read_congr (hs : Letters.fold separator = Letters.fold separator') {ls ls' : List Lexeme}
    (h : List.Forall₂ Lexeme.Alike ls ls') (o b : Bool) :
    read separator o b ls = read separator' o b ls' := by
  induction h generalizing o b with
  | nil => rfl
  | @cons l l' ls ls' h _ ih =>
      rw [read, read, ← h.kind]
      split
      · rename_i htrivia
        rw [h.breaks htrivia, ih]
      · rw [ofLexeme_congr hs h, ih]

end Mark

/-- The grammar starts from the same cursor. -/
theorem Parse.cursor_congr {text text' separator separator' : List Char}
    (h : List.Forall₂ Lexeme.Alike (lexemes text) (lexemes text'))
    (hs : Letters.fold separator = Letters.fold separator') :
    Parse.cursor separator text = Parse.cursor separator' text' := by
  rw [cursor, cursor, Mark.ofLexemes, Mark.ofLexemes, Mark.read_congr hs h]

end SqlCaret
