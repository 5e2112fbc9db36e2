import SqlCaret.Proofs.Syntax.Cut

/-!
# Syntax — tokens apart

A token is told by its own characters alone.  What stands behind it has a say only in where it ends:
a text that is cut off there gives the same token (`Lexeme.extent_of_append`), whichever of the
classes it is of.  For most of them this comes of two facts, that a run of characters ends where it
did (`Lexeme.OwnLength.run`) and that one run may follow another (`Lexeme.OwnLength.add`).

So a text can be cut between any two tokens and both parts are cut into tokens as before
(`lexemes_of_append`), and a token that the text ends inside is the last (`eq_nil_of_unterminated`).
`tokenize_apart` says it of tokens with their offsets.
-/

namespace SqlCaret

/-! ### Delimited text -/

namespace Delimited

/-- Quoted text that is not empty takes a character. -/
theorem quoted_length_pos (close c : Char) (cs : List Char) :
    0 < (quoted close (c :: cs)).length := by
  unfold quoted
  repeat' split
  all_goals simp_all [Extent.after]

theorem comment_length_pos (depth : Nat) (c : Char) (cs : List Char) :
    0 < (comment depth (c :: cs)).length := by
  unfold comment
  repeat' split
  all_goals simp_all [Extent.after]

/-- A quoted text that ends within `a` ends there whatever follows. -/
theorem quoted_of_append {close : Char} {a b : List Char}
    (h : (quoted close (a ++ b)).length ≤ a.length) : quoted close (a ++ b) = quoted close a := by
  fun_induction quoted close a with
  | case1 =>
      cases b with
      | nil => rfl
      | cons d b => exact absurd h (Nat.not_le.mpr (quoted_length_pos close d b))
  | case2 c =>
      cases b with
      | nil => rfl
      | cons d b =>
          have hpos := quoted_length_pos close d b
          simp only [List.cons_append, List.nil_append, quoted, List.length_singleton] at h ⊢
          split at h
          · split at h
            · simp [Extent.after] at h
            · rw [if_pos ‹_›, if_neg ‹_›, beq_iff_eq.mpr ‹_›]
          · simp only [Extent.after] at h
            omega
  | case3 cs ih =>
      simp only [List.cons_append, quoted, if_true, Extent.after, List.length_cons] at h ⊢
      rw [ih (by omega)]
  | case4 d cs hd => simp only [List.cons_append, quoted, if_true, if_neg hd]
  | case5 c d cs hc ih =>
      simp only [List.cons_append, quoted, if_neg hc, Extent.after, List.length_cons] at h ih ⊢
      rw [ih (by omega)]

/-- So does a comment. -/
theorem comment_of_append {depth : Nat} {a b : List Char}
    (h : (comment depth (a ++ b)).length ≤ a.length) :
    comment depth (a ++ b) = comment depth a := by
  fun_induction comment depth a with
  | case1 =>
      -- the text ends here, so anything behind would be taken as well
      cases b with
      | nil => rfl
      | cons d b => exact absurd h (Nat.not_le.mpr (comment_length_pos _ d b))
  | case2 depth c =>
      cases b with
      | nil => rfl
      | cons d b =>
          have hpos := comment_length_pos depth d b
          simp only [List.cons_append, List.nil_append, comment, List.length_singleton] at h
          repeat' split at h
          all_goals simp only [Extent.after] at h; omega
  | case3 depth c d cs hopen ih =>
      simp only [List.cons_append, comment, if_pos hopen, Extent.after, List.length_cons] at h ⊢
      rw [ih (by omega)]
  | case4 depth c d cs hopen hclose hdepth =>
      simp only [List.cons_append, comment, if_neg hopen, if_pos hclose, if_pos hdepth]
  | case5 depth c d cs hopen hclose hdepth ih =>
      simp only [List.cons_append, comment, if_neg hopen, if_pos hclose, if_neg hdepth,
        Extent.after, List.length_cons] at h ⊢
      rw [ih (by omega)]
  | case6 depth c d cs hopen hclose ih =>
      simp only [List.cons_append, comment, if_neg hopen, if_neg hclose, Extent.after,
        List.length_cons] at h ih ⊢
      rw [ih (by omega)]

/-- A comment without an end is all that is left. -/
theorem comment_length_of_open {depth : Nat} {cs : List Char}
    (h : (comment depth cs).closed = false) : (comment depth cs).length = cs.length := by
  fun_induction comment depth cs with
  | case1 => rfl
  | case2 => rfl
  | case3 _ _ _ _ _ ih => simp [Extent.after, ih h]
  | case4 => cases h
  | case5 _ _ _ _ _ _ _ ih => simp [Extent.after, ih h]
  | case6 _ _ _ _ _ _ ih => simp [Extent.after, ih h]

/-- Quoted text without an end takes all there is. -/
theorem quoted_length_of_open {close : Char} {cs : List Char}
    (h : (quoted close cs).closed = false) : (quoted close cs).length = cs.length := by
  rcases quoted_end close cs with ⟨hclosed, -⟩ | ⟨-, hlength⟩
  · rw [hclosed] at h
    cases h
  · exact hlength

end Delimited

namespace Lexeme

/-! ### Lengths -/

/-- The length that `f` tells does not depend on what stands behind it. -/
def OwnLength (f : List Char → Nat) : Prop := ∀ a b, f (a ++ b) ≤ a.length → f (a ++ b) = f a

/-- A run is as long as its characters say. -/
theorem OwnLength.run (p : Char → Bool) : OwnLength (Lexeme.run p) := by
  intro a b h
  induction a with
  | nil => exact Nat.le_zero.mp h
  | cons c a ih =>
      simp only [Lexeme.run, List.cons_append, List.takeWhile_cons] at h ih ⊢
      split
      · rw [if_pos ‹_›] at h
        simp only [List.length_cons, Nat.add_le_add_iff_right] at h ⊢
        rw [ih h]
      · rfl

/-- One length and then another. -/
theorem OwnLength.add {f g : List Char → Nat} (hf : OwnLength f) (hg : OwnLength g) :
    OwnLength fun cs => f cs + g (cs.drop (f cs)) := by
  intro a b h
  simp only at h ⊢
  have hfirst : f (a ++ b) ≤ a.length := by omega
  rw [List.drop_append_of_le_length hfirst] at h ⊢
  rw [hg _ b (by rw [List.length_drop]; omega), hf a b hfirst]

theorem head?_append_of_pos {a : List Char} (ha : 0 < a.length) (b : List Char) :
    (a ++ b).head? = a.head? := by
  obtain ⟨c, a, rfl⟩ := List.exists_cons_of_length_pos ha
  rfl

/-- An exponent is as long as its characters say. -/
theorem ownLength_exponent : OwnLength exponent := by
  intro a b h
  cases a with
  | nil => exact Nat.le_zero.mp h
  | cons e a =>
      simp only [List.cons_append, exponent] at h ⊢
      by_cases he : e = 'e' ∨ e = 'E'
      case neg => rw [if_neg he, if_neg he]
      rw [if_pos he] at h
      rw [if_pos he, if_pos he]
      cases a with
      | nil =>
          -- nothing but the letter is left, so there are no digits behind it
          simp only [List.nil_append, List.length_singleton] at h ⊢
          generalize (if b.head? = some '+' ∨ b.head? = some '-' then 1 else 0) = signs at h ⊢
          split at h
          · rw [if_pos ‹_›]
            rfl
          · omega
      | cons d a =>
          have hhead := head?_append_of_pos (a := d :: a) (Nat.succ_pos a.length) b
          have hsign := sign_le (d :: a)
          simp only [hhead] at h ⊢
          generalize (if (d :: a).head? = some '+' ∨ (d :: a).head? = some '-' then 1 else 0) =
            signs at h hsign ⊢
          rw [List.drop_append_of_le_length hsign] at h ⊢
          have hdigits : Lexeme.run Char.isDigit ((d :: a).drop signs ++ b) =
              Lexeme.run Char.isDigit ((d :: a).drop signs) := by
            refine OwnLength.run _ _ _ ?_
            rw [List.length_drop]
            simp only [List.length_cons] at h hsign ⊢
            split at h
            · omega
            · omega
          rw [hdigits]

theorem ownLength_digits : OwnLength fun cs =>
    Lexeme.run Char.isDigit cs + exponent (cs.drop (Lexeme.run Char.isDigit cs)) :=
  .add (.run Char.isDigit) ownLength_exponent

theorem ownLength_fraction : OwnLength fraction := by
  intro a b h
  cases a with
  | nil => exact Nat.le_zero.mp h
  | cons c a =>
      by_cases hc : c = '.'
      · subst hc
        simp only [List.cons_append, fraction, List.length_cons, Nat.add_assoc] at h ⊢
        have hle := Nat.le_of_add_le_add_left (Nat.add_comm a.length 1 ▸ h)
        exact congrArg (1 + ·) (ownLength_digits a b hle)
      · have hne : ∀ ds, (c :: ds).head? ≠ some '.' := fun ds => by simpa using hc
        rw [List.cons_append, fraction_of_ne (hne _)] at h ⊢
        rw [fraction_of_ne (hne _)]
        exact ownLength_exponent (c :: a) b h

theorem ownLength_number (c : Char) : OwnLength (number c) := by
  intro a b h
  cases a with
  | nil =>
      rw [Nat.le_zero.mp h]
      simp only [number, List.head?_nil, reduceCtorEq, or_self, and_false, if_false]
      rfl
  | cons d a =>
      have hhead := head?_append_of_pos (a := d :: a) (Nat.succ_pos a.length) b
      simp only [number, hhead] at h ⊢
      split at h
      · rw [if_pos ‹_›, if_pos ‹_›]
        simp only [List.cons_append, List.drop_succ_cons, List.drop_zero, List.length_cons] at h ⊢
        rw [OwnLength.run isHexDigit a b (by omega)]
      · rw [if_neg ‹_›, if_neg ‹_›]
        exact OwnLength.add (.run Char.isDigit) ownLength_fraction (d :: a) b h

theorem run_pos {p : Char → Bool} {cs : List Char} {d : Char} (h : cs.head? = some d)
    (hd : p d = true) : 0 < run p cs := by
  obtain ⟨ds, rfl⟩ := List.head?_eq_some_iff.mp h
  simp [run, hd]

/-- A quoted token that ends before the cut ends there without what is behind. -/
theorem quoted_of_append {close : Char} {closed unclosed : Kind} {skipped : Nat} {a b : List Char}
    (h : (quoted close closed unclosed skipped (a ++ b)).2 ≤ a.length) :
    quoted close closed unclosed skipped (a ++ b) = quoted close closed unclosed skipped a := by
  simp only [quoted] at h ⊢
  have hskipped : skipped ≤ a.length := by omega
  rw [List.drop_append_of_le_length hskipped] at h ⊢
  rw [Delimited.quoted_of_append (by rw [List.length_drop]; omega)]

/-! ### Tokens -/

/-- If the first token takes no more than `n` characters, the second is the same. -/
def Within (n : Nat) (e e' : Kind × Nat) : Prop := e.2 ≤ n → e = e'

/-- A choice that is made alike as long as the token ends before the cut. -/
theorem Within.ite {p q : Prop} [Decidable p] [Decidable q] {n : Nat} {e e' f f' : Kind × Nat}
    (hqp : q → p) (hpq : p → e.2 ≤ n → q) (he : p → Within n e e') (hf : Within n f f') :
    Within n (if p then e else f) (if q then e' else f') := by
  intro h
  by_cases hp : p
  · rw [if_pos hp] at h ⊢
    rw [if_pos (hpq hp h)]
    exact he hp h
  · rw [if_neg hp] at h ⊢
    rw [if_neg (mt hqp hp)]
    exact hf h

/-- A carriage return takes the line feed behind it, so no cut is between the two. -/
theorem carriageReturn_of_append {a b : List Char} :
    Within a.length (.newline, if (a ++ b).head? = some '\n' then 1 else 0)
      (.newline, if a.head? = some '\n' then 1 else 0) := by
  cases a with
  | nil =>
      intro h
      exact congrArg (Prod.mk Kind.newline) (Nat.le_zero.mp h)
  | cons d a => exact fun _ => rfl

/-- A comment that ends before the cut ends there without what is behind. -/
theorem comment_of_append {a b : List Char} :
    Within a.length
      (if (Delimited.comment 1 ((a ++ b).drop 1)).closed then .blockComment
        else .unterminatedComment, 1 + (Delimited.comment 1 ((a ++ b).drop 1)).length)
      (if (Delimited.comment 1 (a.drop 1)).closed then .blockComment
        else .unterminatedComment, 1 + (Delimited.comment 1 (a.drop 1)).length) := by
  intro h
  simp only at h
  have hone : 1 ≤ a.length := by omega
  rw [List.drop_append_of_le_length hone] at h ⊢
  rw [Delimited.comment_of_append (by rw [List.length_drop]; omega)]

/-- Whether a point begins a number is told before the cut. -/
theorem dot_of_append {a b : List Char} :
    Within a.length
      (if run Char.isDigit (a ++ b) = 0 then (.dot, 0)
        else (.number, run Char.isDigit (a ++ b) +
          exponent ((a ++ b).drop (run Char.isDigit (a ++ b)))))
      (if run Char.isDigit a = 0 then (.dot, 0)
        else (.number, run Char.isDigit a + exponent (a.drop (run Char.isDigit a)))) := by
  have hdigits : run Char.isDigit (a ++ b) ≤ a.length →
      run Char.isDigit (a ++ b) = run Char.isDigit a := OwnLength.run Char.isDigit a b
  intro h
  by_cases hzero : run Char.isDigit (a ++ b) = 0
  · rw [if_pos hzero, if_pos (hdigits (by omega) ▸ hzero)]
  · rw [if_neg hzero] at h ⊢
    simp only at h
    rw [if_neg (hdigits (by omega) ▸ hzero)]
    exact congrArg (Prod.mk Kind.number) (ownLength_digits a b h)

/-- **A token is told by its own characters.** -/
theorem extent_of_append {c : Char} {a b : List Char} (h : (extent c (a ++ b)).2 ≤ a.length) :
    extent c (a ++ b) = extent c a := by
  have hsame : ∀ {p : Prop} {n : Nat}, p → n ≤ a.length → p := fun h _ => h
  -- a character that the token takes is the next one in both texts
  have hnext : ∀ {p : Prop} {d : Char}, p ∧ a.head? = some d → p ∧ (a ++ b).head? = some d := by
    rintro p d ⟨hp, hd⟩
    rw [head?_append_of_pos (length_pos_of_head? hd)]
    exact ⟨hp, hd⟩
  have hback : ∀ {p : Prop} {d : Char} {n : Nat}, 0 < n → p ∧ (a ++ b).head? = some d →
      n ≤ a.length → p ∧ a.head? = some d := by
    rintro p d n hn ⟨hp, hd⟩ hle
    rw [head?_append_of_pos (Nat.lt_of_lt_of_le hn hle)] at hd
    exact ⟨hp, hd⟩
  revert h
  show Within a.length (extent c (a ++ b)) (extent c a)
  simp only [extent]
  -- one step for each class of token, in the order in which `extent` asks for them
  refine .ite id hsame (fun _ h => by rw [OwnLength.run isSpace a b h]) ?_
  refine .ite id hsame (fun _ _ => rfl) ?_
  refine .ite id hsame (fun _ => carriageReturn_of_append) ?_
  refine .ite hnext (fun hp => hback (run_pos hp.2 (by decide)) hp)
    (fun _ h => by rw [OwnLength.run _ a b h]) ?_
  refine .ite hnext (fun hp => hback (by simp only; omega) hp) (fun _ => comment_of_append) ?_
  refine .ite id hsame (fun _ h => quoted_of_append h) ?_
  refine .ite hnext (fun hp => hback (by simp only [quoted]; omega) hp)
    (fun _ h => quoted_of_append h) ?_
  refine .ite id hsame (fun _ h => quoted_of_append h) ?_
  refine .ite id hsame (fun _ h => quoted_of_append h) ?_
  refine .ite id hsame (fun _ h => by rw [ownLength_number c a b h]) ?_
  refine .ite id hsame (fun _ => dot_of_append) ?_
  refine .ite id hsame (fun _ h => by rw [OwnLength.run isWordPart a b h]) ?_
  intro _
  rfl

/-- A quoted token without an end takes the whole text. -/
theorem length_le_quoted {close : Char} {closed unclosed : Kind} {skipped : Nat} {cs : List Char}
    (hclosed : closed ∉ Kind.unterminated) :
    (quoted close closed unclosed skipped cs).1 ∈ Kind.unterminated →
      cs.length ≤ (quoted close closed unclosed skipped cs).2 := by
  intro h
  simp only [quoted] at h ⊢
  cases hend : (Delimited.quoted close (cs.drop skipped)).closed with
  | true =>
      rw [hend, if_pos rfl] at h
      exact absurd h hclosed
  | false =>
      rw [Delimited.quoted_length_of_open hend, List.length_drop]
      omega

/-- A token that the text ends inside is all that is left. -/
theorem length_le_extent (c : Char) (cs : List Char) :
    (extent c cs).1 ∈ Kind.unterminated → cs.length ≤ (extent c cs).2 := by
  refine extent_cases (P := fun e => e.1 ∈ Kind.unterminated → cs.length ≤ e.2) c cs
    ?space ?lf ?cr ?lineComment ?blockComment ?string ?nationalString ?brackets ?doubleQuotes
    ?digit ?dot ?dotNumber ?word ?single
  case blockComment =>
      intro _ _ h
      cases hend : (Delimited.comment 1 (cs.drop 1)).closed with
      | true =>
          simp only [hend, if_true] at h
          exact absurd h (by decide)
      | false =>
          simp only
          rw [Delimited.comment_length_of_open hend, List.length_drop]
          omega
  case string => exact fun _ => length_le_quoted (by decide)
  case nationalString => exact fun _ _ => length_le_quoted (by decide)
  case brackets => exact fun _ => length_le_quoted (by decide)
  case doubleQuotes => exact fun _ => length_le_quoted (by decide)
  -- tokens of the other classes are whole as they are
  case single => exact fun k hk h => absurd h ((by decide : ∀ k ∈ _, k ∉ Kind.unterminated) k hk)
  all_goals
    intros
    simp_all [Kind.unterminated]

end Lexeme

/-! ### Texts cut between two tokens -/

/-- What is in front of a cut between two tokens is cut as if the text ended there. -/
theorem lexemes_of_append {text : List Char} {front back : List Lexeme}
    (h : lexemes text = front ++ back) : lexemes (front.flatMap (·.text)) = front := by
  induction front generalizing text with
  | nil => rfl
  | cons l front ih =>
      cases text with
      | nil => simp [lexemes, Lexeme.scan] at h
      | cons c cs =>
          have hle := Lexeme.extent_le c cs
          rw [Lexeme.lexemes_cons, List.cons_append, List.cons.injEq] at h
          obtain ⟨rfl, h⟩ := h
          have hdrop := flatMap_text_lexemes (cs.drop (Lexeme.extent c cs).2)
          rw [h, List.flatMap_append] at hdrop
          generalize hn : (Lexeme.extent c cs).2 = n at *
          -- the characters in front of the cut, and those behind it
          have hcs : cs.take n ++ front.flatMap (·.text) ++ back.flatMap (·.text) = cs := by
            rw [List.append_assoc, hdrop, List.take_append_drop]
          have htake : (cs.take n).length = n := List.length_take_of_le hle
          have hsame : Lexeme.extent c (cs.take n ++ front.flatMap (·.text)) =
              Lexeme.extent c cs := by
            rw [← Lexeme.extent_of_append (b := back.flatMap (·.text)), hcs]
            rw [hcs, hn, List.length_append, htake]
            exact Nat.le_add_right n _
          rw [List.flatMap_cons, List.cons_append, Lexeme.lexemes_cons, hsame, hn,
            List.take_append_of_le_length (Nat.le_of_eq htake.symm), List.take_take, Nat.min_self,
            List.drop_append_of_le_length (Nat.le_of_eq htake.symm),
            List.drop_eq_nil_of_le (Nat.le_of_eq htake), List.nil_append, ih h]

/-- Nothing comes behind a token that the text ends inside. -/
theorem eq_nil_of_unterminated {text : List Char} {front back : List Lexeme} {l : Lexeme}
    (h : lexemes text = front ++ l :: back) (hl : l.kind ∈ Kind.unterminated) : back = [] := by
  obtain ⟨c, cs, -, rfl, hback⟩ := exists_extent_of_append h
  rw [List.drop_eq_nil_of_le (Lexeme.length_le_extent c cs hl)] at hback
  cases back with
  | nil => rfl
  | cons m back =>
      have hm : m ∈ lexemes text := by simp [h]
      exact absurd (List.append_eq_nil_iff.mp hback).1 (text_ne_nil_of_mem_lexemes hm)

namespace Token

/-- Tokens that lie end to end from byte `start` to byte `stop`. -/
def EndToEnd : (start : Nat) → List Token → (stop : Nat) → Prop
  | start, [], stop => start = stop
  | start, t :: ts, stop => t.offset = start ∧ EndToEnd t.stop ts stop

/-- Tokens that are placed lie end to end. -/
theorem endToEnd_place (start : Nat) (ls : List Lexeme) :
    EndToEnd start (place start ls) (start + Utf8.size (ls.flatMap (·.text))) := by
  induction ls generalizing start with
  | nil => rfl
  | cons l ls ih =>
      refine ⟨rfl, ?_⟩
      rw [List.flatMap_cons, Utf8.size_append, ← Nat.add_assoc]
      exact ih _

/-- A token starts or ends at byte `k`, or the text does. -/
def IsEdge (ts : List Token) (k : Nat) : Prop := k = 0 ∨ ∃ t ∈ ts, k = t.offset ∨ k = t.stop

/-- At an edge some lexemes are in front and the others behind. -/
theorem IsEdge.exists_append {text : List Char} {k : Nat} (h : IsEdge (tokenize text) k) :
    ∃ front back, lexemes text = front ++ back ∧ k = Utf8.size (front.flatMap (·.text)) := by
  obtain rfl | ⟨t, ht, h⟩ := h
  · exact ⟨[], lexemes text, rfl, rfl⟩
  · obtain ⟨front, back, hls, hoffset⟩ := mem_place ht
    rw [Nat.zero_add] at hoffset
    rcases h with rfl | rfl
    · exact ⟨front, _, hls, hoffset⟩
    · refine ⟨front ++ [t.toLexeme], back, by rw [hls, List.append_cons], ?_⟩
      rw [stop, hoffset, List.flatMap_append, Utf8.size_append, List.flatMap_singleton]

end Token

/-- The tokens of a text that is cut between two of them. -/
theorem tokenize_of_append {text : List Char} {front back : List Lexeme}
    (h : lexemes text = front ++ back) :
    tokenize text = tokenize (front.flatMap (·.text)) ++
      (tokenize (back.flatMap (·.text))).map (.later (Utf8.size (front.flatMap (·.text)))) := by
  rw [tokenize, h, Token.place_append, ← Nat.add_comm _ 0, Token.place_add, tokenize,
    lexemes_of_append h, tokenize, lexemes_flatMap_of_append h]

/-- **A token is cut out of its own text alone.** -/
theorem lexemes_text {text : List Char} {l : Lexeme} (h : l ∈ lexemes text) :
    lexemes l.text = [l] := by
  obtain ⟨front, back, hls⟩ := List.append_of_mem h
  have hback : lexemes ((l :: back).flatMap (·.text)) = [l] ++ back := lexemes_flatMap_of_append hls
  simpa using lexemes_of_append hback

/-- **The tokens of a text make it up, and each is told by its own characters.**  They lie end to
end, none is empty, and only the last can be without an end.  Cut where a token starts or ends, the
text has the tokens of both parts; a token alone is that token. -/
theorem tokenize_apart (text : List Char) :
    Token.EndToEnd 0 (tokenize text) (Utf8.size text) ∧
    (tokenize text).flatMap (·.text) = text ∧
    (∀ t ∈ tokenize text, t.text ≠ [] ∧ Utf8.slice t.offset t.stop text = t.text) ∧
    (∀ front t back, tokenize text = front ++ t :: back → t.kind ∈ Kind.unterminated →
      back = []) ∧
    (∀ k, Token.IsEdge (tokenize text) k → Utf8.IsBoundary text k ∧
      tokenize text = tokenize (Utf8.takeBytes k text) ++
        (tokenize (Utf8.dropBytes k text)).map (.later k)) ∧
    ∀ t ∈ tokenize text, tokenize t.text = [⟨t.toLexeme, 0⟩] := by
  have hlexemes : (tokenize text).map Token.toLexeme = lexemes text :=
    Token.map_toLexeme_place 0 (lexemes text)
  refine ⟨?endToEnd, ?texts, ?slices, ?last, ?cuts, ?alone⟩
  case endToEnd =>
      have h := Token.endToEnd_place 0 (lexemes text)
      rwa [flatMap_text_lexemes, Nat.zero_add] at h
  case texts =>
      rw [← List.flatMap_map Token.toLexeme Lexeme.text, hlexemes, flatMap_text_lexemes]
  case slices =>
      intro t ht
      obtain ⟨before, behind, htext, hsize, hne, -⟩ := exists_around_of_mem_tokenize ht
      refine ⟨hne, ?_⟩
      rw [Token.stop, ← hsize, htext, Utf8.slice_size_append]
  case last =>
      intro front t back h hkind
      rw [h, List.map_append, List.map_cons] at hlexemes
      exact List.map_eq_nil_iff.mp (eq_nil_of_unterminated hlexemes.symm hkind)
  case cuts =>
      intro k hk
      -- an edge parts the tokens into those in front of it and those behind
      obtain ⟨front, back, hls, rfl⟩ := hk.exists_append
      have htext := flatMap_text_lexemes text
      rw [hls, List.flatMap_append] at htext
      refine ⟨⟨_, _, htext.symm, rfl⟩, ?_⟩
      rw [tokenize_of_append hls, ← htext, Utf8.takeBytes_size_append, Utf8.dropBytes_size_append]
  case alone =>
      intro t ht
      have hmem : t.toLexeme ∈ lexemes text := hlexemes ▸ List.mem_map_of_mem ht
      rw [tokenize, lexemes_text hmem, Token.place, Token.place]

/-- A number, a word, an operator and a name that never ends. -/
theorem tokenize_apart_exponent :
    let text := ['1', 'e', '+', '[', 'a']
    tokenize text = tokenize ['1'] ++ (tokenize ['e', '+', '[', 'a']).map (.later 1) ∧
      Utf8.slice 3 5 text = ['[', 'a'] ∧
      tokenize ['[', 'a'] = [⟨⟨.unterminatedIdent, ['[', 'a']⟩, 0⟩] ∧
      ∀ front back, tokenize text = front ++ ⟨⟨.unterminatedIdent, ['[', 'a']⟩, 3⟩ :: back →
        back = [] := by
  intro text
  obtain ⟨-, -, hslices, hlast, hcuts, halone⟩ := tokenize_apart text
  have hname : ⟨⟨.unterminatedIdent, ['[', 'a']⟩, 3⟩ ∈ tokenize text := by decide
  have hedge : Token.IsEdge (tokenize text) 1 :=
    .inr ⟨⟨⟨.number, ['1']⟩, 0⟩, by decide, .inr (by decide)⟩
  exact ⟨(hcuts 1 hedge).2, (hslices _ hname).2, halone _ hname,
    fun front back h => hlast front _ back h (by decide)⟩

end SqlCaret
