import SqlCaret.Proofs.Text.Points
import SqlCaret.Syntax.Token.Scan

/-!
# Syntax — tokens of a text

Where the tokens of a text stand.  They lie end to end from the first byte on, so a token is a
piece of the text between what comes before it and what comes behind it
(`exists_around_of_mem_tokenize`).

White space and comments apart, a token neither starts with a line feed nor parts a carriage
return from its line feed (`Lexeme.endsWhole_extent`).  So a caret can stand at either end of
it.
-/

namespace SqlCaret

/-! ### End to end -/

@[simp] theorem flatMap_text_lexemes (text : List Char) :
    (lexemes text).flatMap (·.text) = text := by
  rw [lexemes, Lexeme.flatMap_text_scan, List.drop_zero]

/-- Behind any of its tokens a text is cut as if it started there. -/
theorem lexemes_flatMap_of_append {text : List Char} {ls rest : List Lexeme}
    (h : lexemes text = ls ++ rest) : lexemes (rest.flatMap (·.text)) = rest := by
  induction ls generalizing text with
  | nil =>
      rw [List.nil_append] at h
      rw [← h, flatMap_text_lexemes]
  | cons l ls ih =>
      cases text with
      | nil => simp [lexemes, Lexeme.scan] at h
      | cons c cs =>
          rw [lexemes, Lexeme.scan_cons, List.cons_append, List.cons.injEq] at h
          exact ih h.2

/-- A text and one of its tokens: what comes before, how the token was found, and what comes
behind. -/
theorem exists_extent_of_append {text : List Char} {ls rest : List Lexeme} {l : Lexeme}
    (h : lexemes text = ls ++ l :: rest) :
    ∃ c cs, text = ls.flatMap (·.text) ++ c :: cs ∧
      l = ⟨(Lexeme.extent c cs).1, c :: cs.take (Lexeme.extent c cs).2⟩ ∧
      rest.flatMap (·.text) = cs.drop (Lexeme.extent c cs).2 := by
  have htext := flatMap_text_lexemes text
  have hrest := lexemes_flatMap_of_append h
  rw [h, List.flatMap_append] at htext
  generalize hcs : (l :: rest).flatMap (·.text) = cs at htext hrest
  cases cs with
  | nil => simp [lexemes, Lexeme.scan] at hrest
  | cons c cs =>
      rw [lexemes, Lexeme.scan_cons, List.cons.injEq] at hrest
      obtain ⟨hl, hr⟩ := hrest
      exact ⟨c, cs, htext.symm, hl.symm, by rw [← hr, flatMap_text_lexemes]⟩

/-- No token is empty, so the lexer gets on. -/
theorem text_ne_nil_of_mem_lexemes {text : List Char} {l : Lexeme} (h : l ∈ lexemes text) :
    l.text ≠ [] := by
  obtain ⟨ls, rest, hls⟩ := List.append_of_mem h
  obtain ⟨c, cs, -, rfl, -⟩ := exists_extent_of_append hls
  simp

namespace Token

/-- Tokens in a row are placed one behind the other. -/
theorem place_append (start : Nat) (ls ms : List Lexeme) :
    place start (ls ++ ms) =
      place start ls ++ place (start + Utf8.size (ls.flatMap (·.text))) ms := by
  induction ls generalizing start with
  | nil => simp [place]
  | cons l ls ih => simp [place, ih, Nat.add_assoc]

/-- The same token `n` bytes further on. -/
def later (n : Nat) (t : Token) : Token := ⟨t.toLexeme, t.offset + n⟩

/-- Starting further on moves all tokens as far. -/
theorem place_add (n start : Nat) (ls : List Lexeme) :
    place (n + start) ls = (place start ls).map (later n) := by
  induction ls generalizing start with
  | nil => rfl
  | cons l ls ih =>
      rw [place, Nat.add_assoc, ih, place, List.map_cons, Nat.add_comm n start]
      rfl

/-- A token starts behind the text of those before it. -/
theorem mem_place {start : Nat} {ls : List Lexeme} {t : Token} (h : t ∈ place start ls) :
    ∃ before behind, ls = before ++ t.toLexeme :: behind ∧
      t.offset = start + Utf8.size (before.flatMap (·.text)) := by
  induction ls generalizing start with
  | nil => simp [place] at h
  | cons l ls ih =>
      rw [place, List.mem_cons] at h
      rcases h with rfl | h
      · exact ⟨[], ls, rfl, by simp⟩
      · obtain ⟨before, behind, rfl, ho⟩ := ih h
        exact ⟨l :: before, behind, rfl, by simp [ho, Nat.add_assoc]⟩

/-- A token lies where the lexemes are placed. -/
theorem bounds_of_mem_place {start : Nat} {ls : List Lexeme} {t : Token} (h : t ∈ place start ls) :
    start ≤ t.offset ∧ t.stop ≤ start + Utf8.size (ls.flatMap (·.text)) := by
  obtain ⟨before, behind, rfl, hoffset⟩ := mem_place h
  rw [stop, List.flatMap_append, List.flatMap_cons, Utf8.size_append, Utf8.size_append]
  omega

/-- No two tokens overlap. -/
theorem pairwise_stop_le_place (start : Nat) (ls : List Lexeme) :
    (place start ls).Pairwise fun a b => a.stop ≤ b.offset := by
  induction ls generalizing start with
  | nil => exact .nil
  | cons l ls ih => exact .cons (fun t ht => (bounds_of_mem_place ht).1) (ih _)

end Token

/-! ### Where no token ends -/

namespace Delimited

/-- A quoted text ends with its closing delimiter, or it is all that is left. -/
theorem quoted_end (close : Char) (cs : List Char) :
    (quoted close cs).closed = true ∧
        (cs.take (quoted close cs).length).getLast? = some close ∨
      (quoted close cs).closed = false ∧ (quoted close cs).length = cs.length := by
  fun_induction quoted close cs with
  | case1 => simp
  | case2 c => by_cases h : c = close <;> simp [h]
  | case3 cs ih =>
      refine ih.imp (fun h => ⟨h.1, ?_⟩) (fun h => ⟨h.1, ?_⟩)
      · simp [Extent.after, List.getLast?_cons, h.2]
      · simp [Extent.after, h.2]
  | case4 => simp
  | case5 c d cs h ih =>
      refine ih.imp (fun h => ⟨h.1, ?_⟩) (fun h => ⟨h.1, ?_⟩)
      · rw [Extent.after, List.take_succ_cons, List.getLast?_cons, h.2]
        rfl
      · simp [Extent.after, h.2]

end Delimited

namespace Lexeme

theorem take_run (p : Char → Bool) (cs : List Char) : cs.take (run p cs) = cs.takeWhile p := by
  rw [run, List.prefix_iff_eq_take.mp (List.takeWhile_prefix p)]
  simp

theorem drop_run (p : Char → Bool) (cs : List Char) : cs.drop (run p cs) = cs.dropWhile p := by
  have h := List.take_append_drop (run p cs) cs
  rw [take_run] at h
  exact List.append_cancel_left (h.trans List.takeWhile_append_dropWhile.symm)

/-- What a run takes satisfies its predicate. -/
theorem of_mem_take_run {p : Char → Bool} {cs : List Char} {c : Char}
    (h : c ∈ cs.take (run p cs)) : p c = true := by
  rw [take_run] at h
  exact List.all_eq_true.mp List.all_takeWhile c h

/-- A class without the two line ends holds neither. -/
theorem isLineEnd_eq_false {p : Char → Bool} (hn : p '\n' = false) (hr : p '\r' = false)
    {c : Char} (h : p c = true) : isLineEnd c = false := by
  rw [isLineEnd, Bool.or_eq_false_iff, beq_eq_false_iff_ne, beq_eq_false_iff_ne]
  constructor
  · rintro rfl
    rw [hn] at h
    cases h
  · rintro rfl
    rw [hr] at h
    cases h

/-- A token without line ends, told by how many characters it takes. -/
def NoLineEnd (n : Nat) (cs : List Char) : Prop := ∀ c ∈ cs.take n, isLineEnd c = false

theorem NoLineEnd.zero (cs : List Char) : NoLineEnd 0 cs := by simp [NoLineEnd]

/-- A run that line ends do not belong to holds none. -/
theorem NoLineEnd.run {p : Char → Bool} (hn : p '\n' = false) (hr : p '\r' = false)
    (cs : List Char) : NoLineEnd (run p cs) cs :=
  fun _ h => isLineEnd_eq_false hn hr (of_mem_take_run h)

/-- Two parts without line ends make one. -/
theorem NoLineEnd.add {m n : Nat} {cs : List Char} (hm : NoLineEnd m cs)
    (hn : NoLineEnd n (cs.drop m)) : NoLineEnd (m + n) cs := by
  intro c hc
  rw [List.take_add, List.mem_append] at hc
  rcases hc with hc | hc
  · exact hm c hc
  · exact hn c hc

/-- One character that is no line end. -/
theorem NoLineEnd.head {c : Char} {cs : List Char} (h : cs.head? = some c)
    (hc : isLineEnd c = false) : NoLineEnd 1 cs := by
  obtain ⟨ds, rfl⟩ := List.head?_eq_some_iff.mp h
  simpa [NoLineEnd] using hc

theorem noLineEnd_digits (cs : List Char) : NoLineEnd (run Char.isDigit cs) cs :=
  .run (by decide) (by decide) cs

theorem noLineEnd_sign (cs : List Char) :
    NoLineEnd (if cs.head? = some '+' ∨ cs.head? = some '-' then 1 else 0) cs := by
  split
  · rename_i h
    rcases h with h | h
    · exact .head h (by decide)
    · exact .head h (by decide)
  · exact .zero cs

theorem noLineEnd_exponent (cs : List Char) : NoLineEnd (exponent cs) cs := by
  cases cs with
  | nil => exact .zero _
  | cons e cs =>
      have hs := noLineEnd_sign cs
      simp only [exponent]
      generalize (if cs.head? = some '+' ∨ cs.head? = some '-' then 1 else 0) = signs at hs ⊢
      by_cases he : e = 'e' ∨ e = 'E'
      · rw [if_pos he]
        split
        · exact .zero _
        · refine .add (.add (.head (c := e) rfl ?_) hs) ?_
          · rcases he with rfl | rfl <;> decide
          · rw [Nat.add_comm 1 signs, List.drop_succ_cons]
            exact noLineEnd_digits _
      · rw [if_neg he]
        exact .zero _

theorem noLineEnd_fraction (cs : List Char) : NoLineEnd (fraction cs) cs := by
  unfold fraction
  split
  · refine .add (.add (.head (c := '.') rfl (by decide)) (noLineEnd_digits _)) ?_
    rw [Nat.add_comm 1, List.drop_succ_cons]
    exact noLineEnd_exponent _
  · exact noLineEnd_exponent cs

/-- A number holds no line end. -/
theorem noLineEnd_number (c : Char) (cs : List Char) : NoLineEnd (number c cs) cs := by
  simp only [number]
  split
  · rename_i h
    refine .add ?_ (.run (by decide) (by decide) _)
    rcases h.2 with h | h
    · exact .head h (by decide)
    · exact .head h (by decide)
  · exact .add (noLineEnd_digits cs) (noLineEnd_fraction _)

/-- The token of `c` and `n` characters behind it ends with a carriage return only at the end
of the text. -/
def EndsWhole (c : Char) (cs : List Char) (n : Nat) : Prop :=
  (c :: cs.take n).getLast? = some '\r' → cs.drop n = []

/-- A token without line ends parts none. -/
theorem EndsWhole.of_noLineEnd {c : Char} {cs : List Char} {n : Nat} (hc : isLineEnd c = false)
    (h : NoLineEnd n cs) : EndsWhole c cs n := by
  intro hlast
  rcases List.mem_cons.mp (List.mem_of_getLast? hlast) with rfl | hmem
  · cases hc
  · cases h _ hmem

/-- A quoted token ends with its delimiter or with the text, so it parts no line end. -/
theorem EndsWhole.quoted {c close : Char} {closed unclosed : Kind} {skipped : Nat}
    {cs : List Char} (h : skipped ≤ cs.length) (hne : close ≠ '\r') :
    EndsWhole c cs (quoted close closed unclosed skipped cs).2 := by
  intro hlast
  simp only [Lexeme.quoted] at hlast ⊢
  rcases Delimited.quoted_end close (cs.drop skipped) with ⟨-, hclose⟩ | ⟨-, hlen⟩
  · rw [List.take_add, List.getLast?_cons, List.getLast?_append, hclose] at hlast
    exact absurd (Option.some.inj hlast) hne
  · rw [hlen, List.drop_eq_nil_iff, List.length_drop]
    omega

/-- Every way a token can start, with what it then takes. -/
theorem extent_cases {P : Kind × Nat → Prop} (c : Char) (cs : List Char)
    (space : isSpace c = true → P (.whitespace, run isSpace cs))
    (lf : c = '\n' → P (.newline, 0))
    (cr : c = '\r' → P (.newline, if cs.head? = some '\n' then 1 else 0))
    (lineComment : c = '-' → cs.head? = some '-' → P (.lineComment, run (!isLineEnd ·) cs))
    (blockComment : c = '/' → cs.head? = some '*' →
      P (if (Delimited.comment 1 (cs.drop 1)).closed then .blockComment else .unterminatedComment,
        1 + (Delimited.comment 1 (cs.drop 1)).length))
    (string : c = '\'' → P (quoted '\'' .string .unterminatedString 0 cs))
    (nationalString : c = 'n' ∨ c = 'N' → cs.head? = some '\'' →
      P (quoted '\'' .string .unterminatedString 1 cs))
    (brackets : c = '[' → P (quoted ']' .quotedIdent .unterminatedIdent 0 cs))
    (doubleQuotes : c = '"' → P (quoted '"' .quotedIdent .unterminatedIdent 0 cs))
    (digit : c.isDigit = true → P (.number, number c cs))
    (dot : c = '.' → run Char.isDigit cs = 0 → P (.dot, 0))
    (dotNumber : c = '.' →
      P (.number, run Char.isDigit cs + exponent (cs.drop (run Char.isDigit cs))))
    (word : isWordStart c = true → P (.word, run isWordPart cs))
    (single : ∀ k ∈ [Kind.semicolon, .leftParen, .rightParen, .comma, .operator, .unknown],
      P (k, 0)) :
    P (extent c cs) := by
  unfold extent
  -- the lexer asks in this order, and each question only when those before it were denied
  refine iteInduction space fun _ => ?_
  refine iteInduction lf fun _ => ?_
  refine iteInduction cr fun _ => ?_
  refine iteInduction (fun h => lineComment h.1 h.2) fun _ => ?_
  refine iteInduction (fun h => blockComment h.1 h.2) fun _ => ?_
  refine iteInduction string fun _ => ?_
  refine iteInduction (fun h => nationalString h.1 h.2) fun _ => ?_
  refine iteInduction brackets fun _ => ?_
  refine iteInduction doubleQuotes fun _ => ?_
  refine iteInduction digit fun _ => ?_
  refine iteInduction (fun h => iteInduction (dot h) fun _ => dotNumber h) fun _ => ?_
  refine iteInduction word fun _ => ?_
  -- what is left takes no second character
  repeat' split
  all_goals exact single _ (by decide)

/-- A significant token does not end between a carriage return and its line feed. -/
theorem endsWhole_extent {c : Char} {cs : List Char} (hc : isLineEnd c = false) :
    (extent c cs).1.isTrivia = false → EndsWhole c cs (extent c cs).2 := by
  have zero : EndsWhole c cs 0 := .of_noLineEnd hc (.zero cs)
  refine extent_cases (P := fun e => e.1.isTrivia = false → EndsWhole c cs e.2) c cs
    ?space ?lf ?cr ?lineComment ?blockComment ?string ?nationalString ?brackets ?doubleQuotes
    ?digit ?dot ?dotNumber ?word ?single
  case space => exact fun _ _ => .of_noLineEnd hc (.run (by decide) (by decide) cs)
  case lf => exact fun _ h => by cases h
  case cr => exact fun _ h => by cases h
  case lineComment => exact fun _ _ h => by cases h
  case blockComment =>
      -- no significant token, closed or not
      intro _ _ h
      simp only at h
      split at h <;> cases h
  case string => exact fun _ _ => .quoted (Nat.zero_le _) (by decide)
  case nationalString =>
      intro _ hq _
      obtain ⟨ds, rfl⟩ := List.head?_eq_some_iff.mp hq
      exact .quoted (by simp) (by decide)
  case brackets => exact fun _ _ => .quoted (Nat.zero_le _) (by decide)
  case doubleQuotes => exact fun _ _ => .quoted (Nat.zero_le _) (by decide)
  case digit => exact fun _ _ => .of_noLineEnd hc (noLineEnd_number c cs)
  case dot => exact fun _ _ _ => zero
  case dotNumber =>
      exact fun _ _ => .of_noLineEnd hc (.add (noLineEnd_digits cs) (noLineEnd_exponent _))
  case word => exact fun _ _ => .of_noLineEnd hc (.run (by decide) (by decide) cs)
  case single => exact fun _ _ _ => zero

/-- A line end starts no significant token. -/
theorem isLineEnd_eq_false_of_extent {c : Char} {cs : List Char}
    (h : (extent c cs).1.isTrivia = false) : isLineEnd c = false := by
  rw [← Bool.not_eq_true]
  intro hline
  rw [isLineEnd, Bool.or_eq_true, beq_iff_eq, beq_iff_eq] at hline
  rcases hline with rfl | rfl
  · cases h
  · cases h

end Lexeme

/-! ### Where significant tokens stand -/

/-- **A token and the text around it.**  Of a significant token the text before and the text
behind are cut off where carets can stand. -/
theorem exists_around_of_mem_tokenize {text : List Char} {t : Token} (h : t ∈ tokenize text) :
    ∃ before behind, text = before ++ (t.text ++ behind) ∧ Utf8.size before = t.offset ∧
      t.text ≠ [] ∧
      (t.isTrivia = false → Document.IsCaret text t.offset ∧ Document.IsCaret text t.stop) := by
  obtain ⟨ls, rest, hls, ho⟩ := Token.mem_place h
  obtain ⟨c, cs, htext, ht, hrest⟩ := exists_extent_of_append hls
  rw [Nat.zero_add] at ho
  have hkind : t.kind = (Lexeme.extent c cs).1 := congrArg Lexeme.kind ht
  have htt : t.text = c :: cs.take (Lexeme.extent c cs).2 := congrArg Lexeme.text ht
  have haround : text = ls.flatMap (·.text) ++ (t.text ++ cs.drop (Lexeme.extent c cs).2) := by
    rw [htext, htt, List.cons_append, List.take_append_drop]
  refine ⟨_, _, haround, ho.symm, by simp [htt], fun hsig => ?_⟩
  rw [Token.isTrivia, hkind] at hsig
  have hc := Lexeme.isLineEnd_eq_false_of_extent hsig
  have hends := Lexeme.endsWhole_extent hc hsig
  constructor
  · refine ⟨_, _, haround, ho.symm, fun hcr => ?_⟩
    rw [htt, List.cons_append, List.head?_cons, Option.some.injEq] at hcr
    rw [hcr.2] at hc
    cases hc
  · refine ⟨ls.flatMap (·.text) ++ t.text, cs.drop (Lexeme.extent c cs).2, ?_, ?_, ?_⟩
    · rw [List.append_assoc, ← haround]
    · rw [Utf8.size_append, Token.stop, ho]
    · rintro ⟨hcr, hlf⟩
      rw [List.getLast?_append, htt, List.getLast?_cons, Option.some_or,
        ← List.getLast?_cons] at hcr
      rw [hends hcr] at hlf
      cases hlf

/-- A caret can stand at either end of a significant token. -/
theorem isCaret_of_mem_significant {text : List Char} {t : Token}
    (h : t ∈ Token.significant (tokenize text)) :
    Document.IsCaret text t.offset ∧ Document.IsCaret text t.stop := by
  obtain ⟨hmem, hsig⟩ := List.mem_filter.mp h
  obtain ⟨-, -, -, -, -, hcaret⟩ := exists_around_of_mem_tokenize hmem
  exact hcaret (by simpa using hsig)

end SqlCaret
