import SqlCaret.Proofs.Syntax.Tokens
import SqlCaret.Syntax.Mark

/-!
# Syntax — cut behind a line feed

No token but one that the text ends inside depends on what stands behind the line feed that
follows: a literal or a comment has had its end before, and everything else stops at the line feed.
So a text without unterminated tokens is cut behind a line feed wherever one follows it
(`exists_cut`): the tokens up to there are the same for all that may stand behind, and what stands
behind is cut as if it were the whole text.
-/

namespace SqlCaret

/-- The kinds of tokens that the text ends inside. -/
def Kind.unterminated : List Kind :=
  [.unterminatedString, .unterminatedIdent, .unterminatedComment]

namespace Delimited

/-- What stands behind a closed comment does not matter to it. -/
theorem comment_append {depth : Nat} {cs : List Char} (h : (comment depth cs).closed = true)
    (rest : List Char) : comment depth (cs ++ rest) = comment depth cs := by
  fun_induction comment depth cs with
  | case1 => cases h
  | case2 => cases h
  | case3 depth c d cs hopen ih =>
      rw [List.cons_append, List.cons_append, comment, if_pos hopen, ih h]
  | case4 depth c d cs hopen hclose hdepth =>
      rw [List.cons_append, List.cons_append, comment, if_neg hopen, if_pos hclose,
        if_pos hdepth]
  | case5 depth c d cs hopen hclose hdepth ih =>
      rw [List.cons_append, List.cons_append, comment, if_neg hopen, if_pos hclose,
        if_neg hdepth, ih h]
  | case6 depth c d cs hopen hclose ih =>
      rw [List.cons_append, List.cons_append, comment, if_neg hopen, if_neg hclose,
        ← List.cons_append, ih h]

/-- Nor does it matter to a closed literal, unless it doubles the closing delimiter. -/
theorem quoted_append {close : Char} {cs : List Char} (h : (quoted close cs).closed = true)
    {d : Char} (hd : d ≠ close) (rest : List Char) :
    quoted close (cs ++ d :: rest) = quoted close cs := by
  fun_induction quoted close cs with
  | case1 => cases h
  | case2 c =>
      obtain rfl : c = close := by simpa using h
      rw [List.singleton_append, quoted, if_pos rfl, if_neg hd, beq_self_eq_true]
  | case3 cs ih =>
      rw [List.cons_append, List.cons_append, quoted, if_pos rfl, if_pos rfl, ih h]
  | case4 e cs he =>
      rw [List.cons_append, List.cons_append, quoted, if_pos rfl, if_neg he]
  | case5 c e cs hc ih =>
      rw [List.cons_append, List.cons_append, quoted, if_neg hc, ← List.cons_append, ih h]

end Delimited

namespace Lexeme

/-- The first token is what its extent says, and the others come behind it. -/
theorem lexemes_cons (c : Char) (cs : List Char) :
    lexemes (c :: cs) =
      ⟨(extent c cs).1, c :: cs.take (extent c cs).2⟩ :: lexemes (cs.drop (extent c cs).2) :=
  scan_cons c cs

/-- A run that ends in front of the text behind it has the same length without it. -/
theorem run_append {p : Char → Bool} {cs rest : List Char} (h : ∀ c ∈ rest.head?, p c = false) :
    run p (cs ++ rest) = run p cs := by
  induction cs with
  | nil =>
      cases rest with
      | nil => rfl
      | cons c rest => simp [run, h c rfl]
  | cons c cs ih =>
      rw [run] at ih
      by_cases hc : p c = true
      · simp [run, hc, ih]
      · simp [run, hc]

/-! ### No more than there is -/

/-- A run ends with the text at the latest. -/
theorem run_le (p : Char → Bool) (cs : List Char) : run p cs ≤ cs.length :=
  (List.takeWhile_prefix p).length_le

theorem length_pos_of_head? {cs : List Char} {d : Char} (h : cs.head? = some d) :
    0 < cs.length := by
  obtain ⟨ds, rfl⟩ := List.head?_eq_some_iff.mp h
  exact Nat.succ_pos _

/-- There is a sign to take. -/
theorem sign_le (cs : List Char) :
    (if cs.head? = some '+' ∨ cs.head? = some '-' then 1 else 0) ≤ cs.length := by
  split
  · rename_i h
    exact h.elim length_pos_of_head? length_pos_of_head?
  · exact Nat.zero_le _

/-- What is taken behind `n` characters is there if the `n` are. -/
theorem add_le_length {m n : Nat} {cs : List Char} (hn : n ≤ cs.length)
    (hm : m ≤ (cs.drop n).length) : n + m ≤ cs.length := by
  rw [List.length_drop] at hm
  omega

theorem exponent_le (cs : List Char) : exponent cs ≤ cs.length := by
  cases cs with
  | nil => exact Nat.le_refl _
  | cons e cs =>
      have h := add_le_length (sign_le cs) (run_le Char.isDigit _)
      simp only [exponent, List.length_cons]
      generalize (if cs.head? = some '+' ∨ cs.head? = some '-' then 1 else 0) = signs at h ⊢
      repeat' split
      all_goals omega

theorem fraction_le (cs : List Char) : fraction cs ≤ cs.length := by
  unfold fraction
  split
  · rename_i cs
    have h := add_le_length (run_le Char.isDigit cs) (exponent_le _)
    simp only [List.length_cons]
    omega
  · exact exponent_le cs

theorem number_le (c : Char) (cs : List Char) : number c cs ≤ cs.length := by
  simp only [number]
  split
  · rename_i h
    exact add_le_length (h.2.elim length_pos_of_head? length_pos_of_head?) (run_le _ _)
  · exact add_le_length (run_le _ cs) (fraction_le _)

/-- A quoted token ends with the text at the latest. -/
theorem quoted_le {close : Char} {closed unclosed : Kind} {skipped : Nat} {cs : List Char}
    (h : skipped ≤ cs.length) : (quoted close closed unclosed skipped cs).2 ≤ cs.length :=
  add_le_length h (Delimited.quoted_length_le _ _)

/-- A token takes no more characters than there are. -/
theorem extent_le (c : Char) (cs : List Char) : (extent c cs).2 ≤ cs.length := by
  refine extent_cases (P := fun e => e.2 ≤ cs.length) c cs
    ?space ?lf ?cr ?lineComment ?blockComment ?string ?nationalString ?brackets ?doubleQuotes
    ?digit ?dot ?dotNumber ?word ?single
  case space => exact fun _ => run_le _ cs
  case lf => exact fun _ => Nat.zero_le _
  case cr =>
      intro _
      simp only
      split
      · rename_i h
        exact length_pos_of_head? h
      · exact Nat.zero_le _
  case lineComment => exact fun _ _ => run_le _ cs
  case blockComment =>
      exact fun _ h => add_le_length (length_pos_of_head? h) (Delimited.comment_length_le _ _)
  case string => exact fun _ => quoted_le (Nat.zero_le _)
  case nationalString => exact fun _ h => quoted_le (length_pos_of_head? h)
  case brackets => exact fun _ => quoted_le (Nat.zero_le _)
  case doubleQuotes => exact fun _ => quoted_le (Nat.zero_le _)
  case digit => exact fun _ => number_le c cs
  case dot => exact fun _ _ => Nat.zero_le _
  case dotNumber => exact fun _ => add_le_length (run_le _ cs) (exponent_le _)
  case word => exact fun _ => run_le _ cs
  case single => exact fun _ _ => Nat.zero_le _

/-! ### Up to a line feed -/

/-- Without a point there is an exponent at most. -/
theorem fraction_of_ne {cs : List Char} (h : cs.head? ≠ some '.') : fraction cs = exponent cs := by
  unfold fraction
  split
  · exact absurd rfl h
  · rfl

section
variable (cs rest : List Char)

/-- The character behind is the same unless it is the line feed. -/
theorem head?_line {d : Char} (hd : d ≠ '\n') :
    (cs ++ '\n' :: rest).head? = some d ↔ cs.head? = some d := by
  cases cs with
  | nil => simp [hd.symm]
  | cons c cs => rfl

/-- A run that no line feed belongs to ends at the line feed. -/
theorem run_line {p : Char → Bool} (hp : p '\n' = false) :
    run p (cs ++ '\n' :: rest) = run p cs := by
  refine run_append fun c hc => ?_
  obtain rfl : '\n' = c := by simpa using hc
  exact hp

/-- Of no more characters than there are the rest goes on in the same way. -/
theorem drop_line {n : Nat} (h : n ≤ cs.length) :
    (cs ++ '\n' :: rest).drop n = cs.drop n ++ '\n' :: rest :=
  List.drop_append_of_le_length h

/-- No exponent goes over a line feed. -/
theorem exponent_line : exponent (cs ++ '\n' :: rest) = exponent cs := by
  cases cs with
  | nil => rfl
  | cons e cs =>
      simp only [List.cons_append, exponent, head?_line cs rest (d := '+') (by decide),
        head?_line cs rest (d := '-') (by decide), drop_line cs rest (sign_le cs),
        run_line _ rest (p := Char.isDigit) rfl]

theorem fraction_line : fraction (cs ++ '\n' :: rest) = fraction cs := by
  by_cases hdot : cs.head? = some '.'
  · obtain ⟨cs, rfl⟩ := List.head?_eq_some_iff.mp hdot
    simp only [List.cons_append, fraction, run_line _ rest (p := Char.isDigit) rfl,
      drop_line cs rest (run_le _ cs), exponent_line]
  · rw [fraction_of_ne hdot, fraction_of_ne (mt (head?_line cs rest (by decide)).mp hdot),
      exponent_line]

/-- No number goes over a line feed. -/
theorem number_line (c : Char) : number c (cs ++ '\n' :: rest) = number c cs := by
  simp only [number, head?_line cs rest (d := 'x') (by decide),
    head?_line cs rest (d := 'X') (by decide)]
  split
  · rename_i h
    rw [drop_line cs rest (h.2.elim length_pos_of_head? length_pos_of_head?), run_line _ rest rfl]
  · rw [run_line _ rest rfl, drop_line cs rest (run_le _ cs), fraction_line]

end

section
variable {cs : List Char} (rest : List Char)

/-- A quoted token that has its end before the line feed keeps it. -/
theorem quoted_line {close : Char} (hclose : '\n' ≠ close) {closed unclosed : Kind} {skipped : Nat}
    (hskipped : skipped ≤ cs.length) (hunclosed : unclosed ∈ Kind.unterminated)
    (h : (quoted close closed unclosed skipped cs).1 ∉ Kind.unterminated) :
    quoted close closed unclosed skipped (cs ++ '\n' :: rest) =
      quoted close closed unclosed skipped cs := by
  have hend : (Delimited.quoted close (cs.drop skipped)).closed = true := by
    rw [← Bool.not_eq_false]
    intro hopen
    simp only [quoted, hopen] at h
    exact h hunclosed
  rw [quoted, quoted, drop_line cs rest hskipped, Delimited.quoted_append hend hclose]

/-- A comment that has its end before the line feed keeps it. -/
theorem comment_line (hopen : cs.head? = some '*')
    (h : (if (Delimited.comment 1 (cs.drop 1)).closed then Kind.blockComment
      else .unterminatedComment) ∉ Kind.unterminated) :
    Delimited.comment 1 ((cs ++ '\n' :: rest).drop 1) = Delimited.comment 1 (cs.drop 1) := by
  have hend : (Delimited.comment 1 (cs.drop 1)).closed = true := by
    rw [← Bool.not_eq_false]
    intro hopen
    rw [hopen] at h
    exact h (by decide)
  rw [drop_line cs rest (length_pos_of_head? hopen), Delimited.comment_append hend]

/-- The second token is the first one, unless the text ends inside it. -/
def Settles (e e' : Kind × Nat) : Prop := e.1 ∉ Kind.unterminated → e' = e

/-- A choice that both texts make alike settles if its branches do. -/
theorem Settles.ite {p : Prop} [Decidable p] {e e' f f' : Kind × Nat} (he : p → Settles e e')
    (hf : Settles f f') : Settles (if p then e else f) (if p then e' else f') := by
  by_cases h : p
  · rw [if_pos h, if_pos h]
    exact he h
  · rw [if_neg h, if_neg h]
    exact hf

/-- **A token stops at a line feed** or before it, and does not depend on what stands behind. -/
theorem settles_line {c : Char} (hc : c ≠ '\r' ∨ cs ≠ []) :
    Settles (extent c cs) (extent c (cs ++ '\n' :: rest)) := by
  have hline : ∀ d : Char, d ≠ '\n' → ((cs ++ '\n' :: rest).head? = some d ↔ cs.head? = some d) :=
    fun d => head?_line cs rest
  -- a carriage return takes the line feed behind it, so something else has to stand between
  have hfeed : c = '\r' → (cs ++ '\n' :: rest).head? = cs.head? := by
    rintro rfl
    obtain ⟨d, ds, rfl⟩ := List.exists_cons_of_ne_nil (hc.resolve_left (by simp))
    rfl
  simp only [extent, hline '-' (by decide), hline '*' (by decide), hline '\'' (by decide)]
  -- one step for each class of token, in the order in which `extent` asks for them
  refine .ite (fun _ _ => by rw [run_line cs rest rfl]) ?_
  refine .ite (fun _ _ => rfl) ?_
  refine .ite (fun hcr _ => by rw [hfeed hcr]) ?_
  refine .ite (fun _ _ => by rw [run_line cs rest rfl]) ?_
  refine .ite (fun hopen h => by rw [comment_line rest hopen.2 h]) ?_
  refine .ite (fun _ => quoted_line rest (by decide) (Nat.zero_le _) (by decide)) ?_
  refine .ite (fun hopen =>
    quoted_line rest (by decide) (length_pos_of_head? hopen.2) (by decide)) ?_
  refine .ite (fun _ => quoted_line rest (by decide) (Nat.zero_le _) (by decide)) ?_
  refine .ite (fun _ => quoted_line rest (by decide) (Nat.zero_le _) (by decide)) ?_
  intro _
  rw [number_line, run_line cs rest rfl, run_line cs rest rfl, drop_line cs rest (run_le _ cs),
    exponent_line]

end

end Lexeme

/-! ### Texts up to a line feed -/

/-- A text that is cut behind a line feed that follows it: `ls` and the line end `l` stand before
the cut, whatever the text behind is. -/
structure Cut (text : List Char) (ls : List Lexeme) (l : Lexeme) : Prop where
  eq : ∀ rest, lexemes (text ++ '\n' :: rest) = ls ++ l :: lexemes rest
  kind : l.kind = .newline
  hasBreak : Mark.hasBreak l.text = true
  /-- Without a line feed behind it, the text may end with a part of the line end. -/
  alone : ∃ ws, lexemes text = ls ++ ws ∧ ∀ w ∈ ws, w.kind.isTrivia = true

namespace Cut

open Lexeme

/-- The line end before the cut is white space. -/
theorem isTrivia {text : List Char} {ls : List Lexeme} {l : Lexeme} (h : Cut text ls l) :
    l.kind.isTrivia = true := by
  rw [h.kind]
  rfl

theorem nil : Cut [] [] ⟨.newline, ['\n']⟩ where
  eq := fun rest => by
    rw [List.nil_append, lexemes_cons]
    rfl
  kind := rfl
  hasBreak := rfl
  alone := ⟨[], rfl, by simp⟩

/-- A carriage return makes one line end with the line feed behind it. -/
theorem carriageReturn : Cut ['\r'] [] ⟨.newline, ['\r', '\n']⟩ where
  eq := fun rest => by
    rw [List.singleton_append, lexemes_cons]
    rfl
  kind := rfl
  hasBreak := rfl
  alone := ⟨[⟨.newline, ['\r']⟩], rfl, by simp [Kind.isTrivia]⟩

/-- A token that does not depend on what is behind the line feed stands before the cut. -/
theorem cons {c : Char} {cs : List Char} {ls : List Lexeme} {l : Lexeme}
    (h : ∀ rest, extent c (cs ++ '\n' :: rest) = extent c cs)
    (hcut : Cut (cs.drop (extent c cs).2) ls l) :
    Cut (c :: cs) (⟨(extent c cs).1, c :: cs.take (extent c cs).2⟩ :: ls) l where
  eq := fun rest => by
    rw [List.cons_append, lexemes_cons, h, drop_line cs rest (extent_le c cs),
      List.take_append_of_le_length (extent_le c cs), hcut.eq, List.cons_append]
  kind := hcut.kind
  hasBreak := hcut.hasBreak
  alone := by
    obtain ⟨ws, hws, htrivia⟩ := hcut.alone
    exact ⟨ws, by rw [lexemes_cons, hws, List.cons_append], htrivia⟩

end Cut

/-- **A text without unterminated tokens is cut behind a line feed.** -/
theorem exists_cut {text : List Char} (h : ∀ l ∈ lexemes text, l.kind ∉ Kind.unterminated) :
    ∃ ls l, Cut text ls l := by
  induction hn : text.length using Nat.strongRecOn generalizing text with
  | ind n ih =>
      subst hn
      cases text with
      | nil => exact ⟨_, _, .nil⟩
      | cons c cs =>
          by_cases hcr : c = '\r' ∧ cs = []
          · obtain ⟨rfl, rfl⟩ := hcr
            exact ⟨_, _, .carriageReturn⟩
          · rw [Lexeme.lexemes_cons] at h
            obtain ⟨hfirst, hothers⟩ := List.forall_mem_cons.mp h
            have hlt : (cs.drop (Lexeme.extent c cs).2).length < (c :: cs).length :=
              Nat.lt_succ_of_le (List.length_drop ▸ Nat.sub_le _ _)
            obtain ⟨ls, l, hcut⟩ := ih _ hlt hothers rfl
            have hsame := fun rest =>
              Lexeme.settles_line rest (Decidable.not_and_iff_not_or_not.mp hcr) hfirst
            exact ⟨_, l, .cons hsame hcut⟩

namespace Mark

/-- Behind a line end a line opens, and one has ended. -/
theorem read_append_newline (separator : List Char) {l : Lexeme} (hl : l.kind = .newline)
    (hbreak : hasBreak l.text = true) (o b : Bool) (ls rest : List Lexeme) :
    read separator o b (ls ++ l :: rest) =
      read separator o b ls ++ read separator true true rest := by
  induction ls generalizing o b with
  | nil => simp [read, hl, hbreak, Kind.isTrivia]
  | cons x ls ih =>
      by_cases hx : x.kind.isTrivia = true
      · simp [read, hx, ih]
      · simp [read, hx, ih]

/-- White space and comments have no marks. -/
theorem read_trivia (separator : List Char) (o b : Bool) {ws : List Lexeme}
    (hws : ∀ w ∈ ws, w.kind.isTrivia = true) : read separator o b ws = [] := by
  induction ws generalizing o b with
  | nil => rfl
  | cons w ws ih =>
      rw [read, if_pos (hws w List.mem_cons_self)]
      exact ih _ _ fun w' hw' => hws w' (List.mem_cons_of_mem _ hw')

/-- White space and comments at the end have no marks. -/
theorem read_append_trivia (separator : List Char) (o b : Bool) (ls : List Lexeme)
    {ws : List Lexeme} (hws : ∀ w ∈ ws, w.kind.isTrivia = true) :
    read separator o b (ls ++ ws) = read separator o b ls := by
  induction ls generalizing o b with
  | nil => exact read_trivia separator o b hws
  | cons x ls ih =>
      by_cases hx : x.kind.isTrivia = true
      · simp [read, hx, ih]
      · simp [read, hx, ih]

end Mark

/-- **The marks of a text that is cut** are those of the text and then those of what stands behind
the line feed. -/
theorem Cut.ofLexemes {text : List Char} {ls : List Lexeme} {l : Lexeme} (h : Cut text ls l)
    (separator rest : List Char) :
    Mark.ofLexemes separator (lexemes (text ++ '\n' :: rest)) =
      Mark.ofLexemes separator (lexemes text) ++ Mark.ofLexemes separator (lexemes rest) := by
  obtain ⟨ws, hws, htrivia⟩ := h.alone
  rw [Mark.ofLexemes, h.eq, Mark.read_append_newline separator h.kind h.hasBreak, Mark.ofLexemes,
    hws, Mark.read_append_trivia separator true true ls htrivia, Mark.ofLexemes]

end SqlCaret
