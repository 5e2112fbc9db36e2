import SqlCaret.Proofs.Syntax.Alike
import SqlCaret.Proofs.Text.Case
import SqlCaret.Syntax.Token.Scan

/-!
# Syntax — letter case

A text is cut into the same tokens whatever its letter case (`lexemes_fold`).  Every question that
the cutting asks of a character has the same answer for a letter and its capital, so every length
that is measured is that of the folded text.  In pairs the lexemes of two texts that differ in
letter case only are alike (`Lexeme.alike_of_fold_eq`).
-/

namespace SqlCaret

namespace Lexeme

open Letters

/-- The lexeme with its text in one letter case. -/
def fold (l : Lexeme) : Lexeme := { l with text := Letters.fold l.text }

/-! ### One character -/

/-- White space has no letter case. -/
theorem isSpace_toUpper (c : Char) : isSpace c.toUpper = isSpace c := apply_toUpper (by decide) c

theorem isLineEnd_toUpper (c : Char) : isLineEnd c.toUpper = isLineEnd c :=
  apply_toUpper (by decide) c

/-- Decimal digits have no letter case. -/
theorem isDigit_toUpper (c : Char) : c.toUpper.isDigit = c.isDigit := apply_toUpper (by decide) c

/-- The letters among the hexadecimal digits count in both cases. -/
theorem isHexDigit_toUpper (c : Char) : isHexDigit c.toUpper = isHexDigit c :=
  apply_toUpper (by decide) c

/-- A word begins in both cases. -/
theorem isWordStart_toUpper (c : Char) : isWordStart c.toUpper = isWordStart c :=
  apply_toUpper (by decide) c

/-- A word goes on in both cases. -/
theorem isWordPart_toUpper (c : Char) : isWordPart c.toUpper = isWordPart c :=
  apply_toUpper (by decide) c

theorem isOperator_toUpper (c : Char) : isOperator c.toUpper = isOperator c :=
  apply_toUpper (by decide) c

/-- What is asked of the first character has one answer in both cases, if it has for each letter. -/
theorem head?_fold_iff {p : Char → Prop}
    (h : ∀ n < 26, (p (letter n).toUpper ↔ p (letter n))) (cs : List Char) :
    (∃ c, (Letters.fold cs).head? = some c ∧ p c) ↔ ∃ c, cs.head? = some c ∧ p c := by
  cases cs with
  | nil => rfl
  | cons c cs => simpa using iff_toUpper h c

/-- A first character that is no letter is there in both cases or in none. -/
theorem head?_fold_eq_iff {d : Char} (h : d.isAlpha = false) (cs : List Char) :
    (Letters.fold cs).head? = some d ↔ cs.head? = some d := by
  cases cs with
  | nil => rfl
  | cons c cs => simpa using toUpper_eq_iff h c

/-! ### Lengths -/

theorem drop_fold (n : Nat) (cs : List Char) :
    (Letters.fold cs).drop n = Letters.fold (cs.drop n) := List.map_drop.symm

/-- A run of characters is as long in both cases. -/
theorem run_fold {p : Char → Bool} (h : ∀ c, p c.toUpper = p c) (cs : List Char) :
    run p (Letters.fold cs) = run p cs := by
  have hp : p ∘ Char.toUpper = p := funext h
  rw [run, run, Letters.fold, List.takeWhile_map, List.length_map, hp]

/-- An exponent may begin with `e` in either case. -/
theorem exponent_fold (cs : List Char) : exponent (Letters.fold cs) = exponent cs := by
  cases cs with
  | nil => rfl
  | cons c cs =>
      have he : (c.toUpper = 'e' ∨ c.toUpper = 'E') ↔ (c = 'e' ∨ c = 'E') :=
        iff_toUpper (p := fun c => c = 'e' ∨ c = 'E') (by decide) c
      simp (disch := decide) only [Letters.fold_cons, exponent, he, head?_fold_eq_iff, drop_fold,
        run_fold isDigit_toUpper]

/-- A fraction is as long in both cases, its exponent included. -/
theorem fraction_fold (cs : List Char) : fraction (Letters.fold cs) = fraction cs := by
  cases cs with
  | nil => rfl
  | cons c cs =>
      by_cases hc : c = '.'
      · subst hc
        have hdot : Char.toUpper '.' = '.' := rfl
        simp only [Letters.fold_cons, hdot, fraction, drop_fold, run_fold isDigit_toUpper,
          exponent_fold]
      · have hc' : c.toUpper ≠ '.' := mt (toUpper_eq_iff (by decide) c).mp hc
        have hplain : ∀ {d : Char} (ds : List Char), d ≠ '.' →
            fraction (d :: ds) = exponent (d :: ds) := by
          intro d ds hd
          rw [fraction]
          rintro _ h
          exact hd (List.cons.inj h).1
        rw [Letters.fold_cons, hplain _ hc', hplain _ hc, ← Letters.fold_cons, exponent_fold]

/-- A number is as long in both cases; only `0x` and the exponent hold letters. -/
theorem number_fold (c : Char) (cs : List Char) :
    number c.toUpper (Letters.fold cs) = number c cs := by
  have hx : ((Letters.fold cs).head? = some 'x' ∨ (Letters.fold cs).head? = some 'X') ↔
      (cs.head? = some 'x' ∨ cs.head? = some 'X') := by
    have h := head?_fold_iff (p := fun c => c = 'x' ∨ c = 'X') (by decide) cs
    simpa [and_or_left, exists_or] using h
  simp (disch := decide) only [number, toUpper_eq_iff, hx, drop_fold, run_fold isHexDigit_toUpper,
    run_fold isDigit_toUpper, fraction_fold]

/-- A closing character that is no letter is found at the same place. -/
theorem delimited_quoted_fold {close : Char} (h : close.isAlpha = false)
    (cs : List Char) : Delimited.quoted close (Letters.fold cs) = Delimited.quoted close cs := by
  have hclose := toUpper_eq_iff h
  fun_induction Delimited.quoted close cs <;>
    simp_all [Delimited.quoted]

/-- No letter opens or closes a comment. -/
theorem delimited_comment_fold (depth : Nat) (cs : List Char) :
    Delimited.comment depth (Letters.fold cs) = Delimited.comment depth cs := by
  have hslash : ∀ c : Char, c.toUpper = '/' ↔ c = '/' := toUpper_eq_iff (by decide)
  have hstar : ∀ c : Char, c.toUpper = '*' ↔ c = '*' := toUpper_eq_iff (by decide)
  fun_induction Delimited.comment depth cs with
  | case1 => rfl
  | case2 => rfl
  | case3 depth c d cs hopens ih =>
      simp only [Letters.fold_cons, Delimited.comment, hslash, hstar, if_pos hopens, ih]
  | case4 depth c d cs hopens hcloses hdepth =>
      simp only [Letters.fold_cons, Delimited.comment, hslash, hstar, if_neg hopens,
        if_pos hcloses, if_pos hdepth]
  | case5 depth c d cs hopens hcloses hdepth ih =>
      simp only [Letters.fold_cons, Delimited.comment, hslash, hstar, if_neg hopens,
        if_pos hcloses, if_neg hdepth, ih]
  | case6 depth c d cs hopens hcloses ih =>
      rw [Letters.fold_cons] at ih
      simp only [Letters.fold_cons, Delimited.comment, hslash, hstar, if_neg hopens,
        if_neg hcloses, ih]

/-- A quoted token is as long and as closed in both cases. -/
theorem quoted_fold (close : Char) (h : close.isAlpha = false)
    (closed unclosed : Kind) (skipped : Nat) (cs : List Char) :
    quoted close closed unclosed skipped (Letters.fold cs) =
      quoted close closed unclosed skipped cs := by
  rw [quoted, quoted, drop_fold, delimited_quoted_fold h]

/-! ### Tokens -/

/-- **The extent of a token is that of the folded token.** -/
theorem extent_fold (c : Char) (cs : List Char) :
    extent c.toUpper (Letters.fold cs) = extent c cs := by
  have hn : (c.toUpper = 'n' ∨ c.toUpper = 'N') ↔ (c = 'n' ∨ c = 'N') :=
    iff_toUpper (p := fun c => c = 'n' ∨ c = 'N') (by decide) c
  have hline : ∀ c : Char, (!isLineEnd c.toUpper) = !isLineEnd c :=
    fun c => congrArg not (isLineEnd_toUpper c)
  -- a character that is no letter stands where it stood, also as the second of a token
  have hsign : ∀ d : Char, d.isAlpha = false → (c.toUpper = d ↔ c = d) :=
    fun d h => toUpper_eq_iff h c
  have hnext : ∀ d : Char, d.isAlpha = false →
      ((Letters.fold cs).head? = some d ↔ cs.head? = some d) := fun d h => head?_fold_eq_iff h cs
  simp only [extent, hn, hsign '\n' (by decide), hsign '\r' (by decide), hsign '-' (by decide),
    hsign '/' (by decide), hsign '\'' (by decide), hsign '[' (by decide), hsign '"' (by decide),
    hsign '.' (by decide), hsign ';' (by decide), hsign '(' (by decide), hsign ')' (by decide),
    hsign ',' (by decide), hnext '\n' (by decide), hnext '-' (by decide), hnext '*' (by decide),
    hnext '\'' (by decide), isSpace_toUpper, isDigit_toUpper, isWordStart_toUpper,
    isOperator_toUpper, drop_fold, number_fold, delimited_comment_fold, exponent_fold,
    quoted_fold '\'' (by decide), quoted_fold ']' (by decide), quoted_fold '"' (by decide),
    run_fold isSpace_toUpper, run_fold (p := (!isLineEnd ·)) hline, run_fold isDigit_toUpper,
    run_fold isWordPart_toUpper]

/-- **The lexer cuts a text in one letter case where it cuts the text itself.** -/
theorem scan_fold (n : Nat) (cs : List Char) :
    scan n (Letters.fold cs) = (scan n cs).map fold := by
  induction cs generalizing n with
  | nil => cases n <;> rfl
  | cons c cs ih =>
      cases n with
      | zero =>
          rw [Letters.fold_cons, scan, scan, extent_fold, ih, List.map_cons, fold,
            Letters.fold_cons, Letters.fold, Letters.fold, List.map_take]
      | succ n =>
          rw [Letters.fold_cons, scan, scan, ih]

end Lexeme

/-- **A text is cut into the same tokens in any letter case.** -/
theorem lexemes_fold (text : List Char) :
    lexemes (Letters.fold text) = (lexemes text).map Lexeme.fold := Lexeme.scan_fold 0 text

/-- Folding keeps the line ends in a token. -/
theorem Mark.hasBreak_fold (text : List Char) : hasBreak (Letters.fold text) = hasBreak text := by
  have hbreak : ∀ c : Char, (c.toUpper == '\n' || c.toUpper == '\r') = (c == '\n' || c == '\r') :=
    Letters.apply_toUpper (f := fun c => c == '\n' || c == '\r') (by decide)
  simp [hasBreak, Letters.fold, List.any_map, Function.comp_def, hbreak]

namespace Lexeme

/-- Lexemes that differ in letter case only are alike. -/
theorem alike_of_fold_eq {l l' : Lexeme} (h : l.fold = l'.fold) : l.Alike l' := by
  obtain ⟨hkind, htext⟩ := Lexeme.mk.inj h
  refine ⟨hkind, fun _ => htext, fun _ => ?_⟩
  rw [← Mark.hasBreak_fold, htext, Mark.hasBreak_fold]

/-- Texts that differ in letter case only have lexemes that do, in pairs. -/
theorem forall₂_fold_eq {text text' : List Char} (h : Letters.fold text = Letters.fold text') :
    List.Forall₂ (fun l l' : Lexeme => l.fold = l'.fold) (lexemes text) (lexemes text') := by
  have hlexemes : (lexemes text).map fold = (lexemes text').map fold := by
    rw [← lexemes_fold, h, lexemes_fold]
  rw [← List.forall₂_eq_eq_eq] at hlexemes
  simpa using hlexemes

end Lexeme

end SqlCaret
