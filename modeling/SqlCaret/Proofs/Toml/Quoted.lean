import Mathlib.Tactic.Common
import SqlCaret.Toml.Quoted

/-!
# TOML — strings written and read

Reading the string that `write` makes of a text gives the text back, in each of the forms
(`readQuoted?_write`).

A basic string holds each character as it is, or by an escape that is read as the character
(`Held`, `held_escapeChar`).  A literal string has no escapes, so `write` must keep everything out
that would end it or that it may not have.  Over several lines either kind can hold quotes, but
only two in a row: then those in front of the closing ones are told from these (`Leads`), and a
quote anywhere else ends nothing (`readLines?_quote`).
-/

namespace SqlCaret.Toml

/-! ### Escapes -/

/-- A written hexadecimal digit. -/
theorem hexValue?_toUpper {n : Nat} (h : n < 16) :
    Json.hexValue? ((Nat.toDigits 16 n).headD '0').toUpper = some n := by
  have hall : ∀ n : Fin 16,
      Json.hexValue? ((Nat.toDigits 16 n).headD '0').toUpper = some n.val := by decide
  exact hall ⟨n, h⟩

/-- Every character has a number that is read as the character. -/
theorem charOf?_toNat (c : Char) : charOf? c.toNat = some c := by
  have hvalid : c.toNat.isValidChar := c.valid
  rw [charOf?, dif_pos hvalid]
  exact congrArg some (Char.ext rfl)

/-- A numbered escape with two zeros in front. -/
theorem escape?_numbered {a b c : Char} (ha : Json.hexValue? a = some (c.toNat / 16))
    (hb : Json.hexValue? b = some (c.toNat % 16)) (rest : List Char) :
    escape? ('u' :: '0' :: '0' :: a :: b :: rest) = some (c, 5) := by
  have hzero : Json.hexValue? '0' = some 0 := rfl
  have hvalue : c.toNat / 16 * 16 + c.toNat % 16 = c.toNat := by omega
  simp [escape?, hexChar?, hzero, ha, hb, hvalue, charOf?_toNat]

/-- How a basic string holds a character. -/
inductive Held (lines : Bool) (c : Char) : List Char → Prop
  /-- As it is. -/
  | plain (hplain : isPlain c = true) (hquote : c ≠ '"') (hslash : c ≠ '\\') : Held lines c [c]
  /-- A line break. -/
  | kept (hlines : lines = true) (hbreak : c = '\n') : Held lines c [c]
  /-- By an escape with this text behind the backslash. -/
  | escape {cs : List Char} (hbreak : ∀ rest, continuation (cs ++ rest) = 0)
      (hread : ∀ rest, escape? (cs ++ rest) = some (c, cs.length)) : Held lines c ('\\' :: cs)

/-- A line goes on with nothing skipped, unless white space stands behind the backslash. -/
theorem continuation_eq_zero {c : Char} (h : c ≠ ' ' ∧ c ≠ '\t' ∧ c ≠ '\n' ∧ c ≠ '\r')
    (cs : List Char) : continuation (c :: cs) = 0 := by
  obtain ⟨hspace, htab, hline, hreturn⟩ := h
  simp [continuation, hspace, htab, lineBreak.eq_def, hline, hreturn]

/-- A quote can be held by its escape, in a string over several lines too. -/
theorem held_quote (lines : Bool) : Held lines '"' ['\\', '"'] :=
  .escape (fun rest => continuation_eq_zero (by decide) rest) fun rest => rfl

/-- `write` holds every other character in a way that is read back. -/
theorem held_escapeChar (lines : Bool) {c : Char} (hc : c ≠ '"') :
    Held lines c (escapeChar lines c) := by
  have hletter : ∀ (e : Char), (e ≠ ' ' ∧ e ≠ '\t' ∧ e ≠ '\n' ∧ e ≠ '\r') →
      (∀ rest, escape? (e :: rest) = some (c, 1)) → Held lines c ['\\', e] :=
    fun e he hread => .escape (fun rest => continuation_eq_zero he rest) hread
  unfold escapeChar
  split
  case isTrue h => exact hletter 'b' (by decide) fun _ => by rw [h]; rfl
  split
  case isTrue h => exact hletter 't' (by decide) fun _ => by rw [h]; rfl
  split
  case isTrue h =>
    split
    case isTrue hlines => exact .kept hlines h
    case isFalse => exact hletter 'n' (by decide) fun _ => by rw [h]; rfl
  split
  case isTrue h => exact hletter 'f' (by decide) fun _ => by rw [h]; rfl
  split
  case isTrue h => exact hletter 'r' (by decide) fun _ => by rw [h]; rfl
  split
  case isTrue h => exact hletter '\\' (by decide) fun _ => by rw [h]; rfl
  split
  case isTrue h =>
    -- a control character is written by its number, which has two digits
    have hhigh := hexValue?_toUpper (n := c.toNat / 16) (by omega)
    have hlow := hexValue?_toUpper (n := c.toNat % 16) (by omega)
    exact .escape (fun rest => continuation_eq_zero (by decide) _) (escape?_numbered hhigh hlow)
  -- anything else is plain and stands for itself
  case isFalse hslash hcontrol =>
    refine .plain ?_ hc hslash
    simp only [isPlain, Bool.or_eq_true, Bool.and_eq_true, decide_eq_true_eq, bne_iff_ne]
    omega

/-! ### Reading -/

theorem readLine?_skip (quote : Char) (cs rest : List Char) :
    readLine? quote cs.length (cs ++ rest) = readLine? quote 0 rest := by
  induction cs with
  | nil => rfl
  | cons c cs ih => rw [List.length_cons, List.cons_append, readLine?, ih]

/-- Characters that an escape has used are passed over, over several lines too. -/
theorem readLines?_skip (quote : Char) (cs rest : List Char) :
    readLines? quote cs.length (cs ++ rest) = readLines? quote 0 rest := by
  induction cs with
  | nil => rfl
  | cons c cs ih => rw [List.length_cons, List.cons_append, readLines?, ih]

/-- A character that is held is read. -/
theorem readLine?_held {c : Char} {cs text rest rest' : List Char} (h : Held false c cs)
    (hread : readLine? '"' 0 rest = some (text, rest')) :
    readLine? '"' 0 (cs ++ rest) = some (c :: text, rest') := by
  cases h with
  | plain hplain hquote hslash =>
      simp [readLine?, hplain, hquote, hslash, hread]
  | kept hlines => exact nomatch hlines
  | @escape cs hbreak hescape =>
      have hskip := readLine?_skip '"' cs rest
      rw [hread] at hskip
      simp [readLine?, hescape, hskip]

/-- What holds a character is read as that character, and reading goes on behind it. -/
theorem readLines?_held {c : Char} {cs text rest rest' : List Char} (h : Held true c cs)
    (hread : readLines? '"' 0 rest = some (text, rest')) :
    readLines? '"' 0 (cs ++ rest) = some (c :: text, rest') := by
  cases h with
  | plain hplain hquote hslash =>
      simp [readLines?, hplain, hquote, hslash, hread]
  | kept _ hbreak =>
      subst hbreak
      simp [readLines?, isPlain, lineBreak, hread]
  | @escape cs hbreak hescape =>
      have hskip := readLines?_skip '"' cs rest
      rw [hread] at hskip
      simp [readLines?, hescape, hbreak, hskip]

/-! ### Rows of quotes -/

section
variable {quote : Char}

/-- How many quotes a text begins with. -/
def quotes (quote : Char) (cs : List Char) : Nat := (cs.takeWhile (· == quote)).length

@[simp] theorem quotes_cons_self (cs : List Char) :
    quotes quote (quote :: cs) = quotes quote cs + 1 := by
  simp [quotes]

theorem quotes_cons_of_ne {c : Char} (h : c ≠ quote) (cs : List Char) :
    quotes quote (c :: cs) = 0 := by
  simp [quotes, h]

/-- Behind `row` quotes, beginning with so few that they are none of the closing ones, or with
these and the few in front of them. -/
def Leads (quote : Char) (row : Nat) (cs : List Char) : Prop :=
  quotes quote cs + row ≤ 2 ∨ 3 ≤ quotes quote cs ∧ quotes quote cs + row ≤ 5

theorem Leads.cons {row : Nat} {cs : List Char} (h : Leads quote (row + 1) cs) :
    Leads quote row (quote :: cs) := by
  unfold Leads at h ⊢
  rw [quotes_cons_self]
  omega

/-- Two quotes in front of another character are not the closing ones. -/
theorem leads_of_ne {row : Nat} (hrow : row ≤ 2) {c : Char} (h : c ≠ quote) (cs : List Char) :
    Leads quote row (c :: cs) :=
  .inl (by rw [quotes_cons_of_ne h]; omega)

/-- The closing quotes are three if no quote stands behind them. -/
theorem quotes_closing {rest : List Char} (hrest : rest.head? ≠ some quote) :
    quotes quote (quote :: quote :: quote :: rest) = 3 := by
  have hzero : quotes quote rest = 0 := by
    cases rest with
    | nil => rfl
    | cons c rest => exact quotes_cons_of_ne (fun h => hrest (congrArg some h)) rest
  simp only [quotes_cons_self, hzero]

/-- The closing quotes. -/
theorem leads_closing {row : Nat} (hrow : row ≤ 2) {rest : List Char}
    (hrest : rest.head? ≠ some quote) : Leads quote row (quote :: quote :: quote :: rest) := by
  refine .inr ?_
  rw [quotes_closing hrest]
  omega

/-- Of three to five quotes the last three close the string, and the others belong to it. -/
theorem readLines?_closing {cs : List Char} (h : 3 ≤ quotes quote cs) (h' : quotes quote cs ≤ 5) :
    readLines? quote 0 cs =
      some (List.replicate (quotes quote cs - 3) quote, cs.drop (quotes quote cs)) := by
  cases cs with
  | nil => exact absurd h (by simp [quotes])
  | cons c cs =>
      unfold quotes at h h' ⊢
      simp [readLines?, h, h']

theorem readLines?_end {rest : List Char} (hrest : rest.head? ≠ some quote) :
    readLines? quote 0 (quote :: quote :: quote :: rest) = some ([], rest) := by
  have hquotes := quotes_closing hrest
  rw [readLines?_closing (by omega) (by omega), hquotes]
  rfl

/-- A quote is read, if no more of them follow than there may. -/
theorem readLines?_quote {row : Nat} {cs text rest : List Char} (hplain : isPlain quote = true)
    (hslash : quote ≠ '\\') (hleads : Leads quote (row + 1) cs)
    (hread : readLines? quote 0 cs = some (text, rest)) :
    readLines? quote 0 (quote :: cs) = some (quote :: text, rest) := by
  rcases hleads with hfew | ⟨hclosing, hmost⟩
  · -- with this one there are two at most, so it is a character like any other
    have hquotes : ¬ 3 ≤ quotes quote (quote :: cs) := by
      rw [quotes_cons_self]
      omega
    unfold quotes at hquotes
    simp only [readLines?, hquotes, hslash, hplain, hread]
    simp
  · -- the closing ones are there already, so this is one more in front of them
    rw [readLines?_closing hclosing (by omega), Option.some.injEq, Prod.mk.injEq] at hread
    obtain ⟨rfl, rfl⟩ := hread
    rw [readLines?_closing (by rw [quotes_cons_self]; omega) (by rw [quotes_cons_self]; omega),
      quotes_cons_self, List.drop_succ_cons, ← List.replicate_succ]
    congr 3
    omega

end

/-! ### Basic strings -/

/-- Only a quote is held by something that begins with a quote. -/
theorem Held.ne_quote {lines : Bool} {c : Char} {cs : List Char} (h : Held lines c cs)
    (hc : c ≠ '"') : ∃ d ds, cs = d :: ds ∧ d ≠ '"' := by
  cases h with
  | plain => exact ⟨_, _, rfl, hc⟩
  | kept => exact ⟨_, _, rfl, hc⟩
  | escape => exact ⟨_, _, rfl, by decide⟩

/-- A basic string on one line. -/
theorem readLine?_escapeText (s rest : List Char) (row : Nat) :
    readLine? '"' 0 (escapeText false 0 row s ++ '"' :: rest) = some (s, rest) := by
  induction s generalizing row with
  | nil => simp [escapeText, readLine?]
  | cons c s ih =>
      rw [escapeText]
      split
      case isTrue hc =>
        subst hc
        rw [if_pos (Nat.succ_pos row)]
        have hread := readLine?_held (held_quote false) (ih 0)
        exact hread
      case isFalse hc =>
        rw [List.append_assoc]
        exact readLine?_held (held_escapeChar false hc) (ih 0)

/-- A basic string over several lines never has more than two quotes in a row as they are. -/
theorem leads_escapeText {row : Nat} (hrow : row ≤ 2) (s : List Char) {rest : List Char}
    (hrest : rest.head? ≠ some '"') :
    Leads '"' row (escapeText true 2 row s ++ '"' :: '"' :: '"' :: rest) := by
  induction s generalizing row with
  | nil => exact leads_closing hrow hrest
  | cons c s ih =>
      rw [escapeText]
      split
      case isTrue hc =>
        subst hc
        split
        case isTrue => exact leads_of_ne hrow (by decide) _
        case isFalse hfew => exact (ih (Nat.not_lt.mp hfew)).cons
      case isFalse hc =>
        obtain ⟨d, ds, hd, hne⟩ := (held_escapeChar true hc).ne_quote hc
        rw [hd]
        exact leads_of_ne hrow hne _

/-- A basic string over several lines. -/
theorem readLines?_escapeText (s : List Char) {rest : List Char} (hrest : rest.head? ≠ some '"')
    {row : Nat} (hrow : row ≤ 2) :
    readLines? '"' 0 (escapeText true 2 row s ++ '"' :: '"' :: '"' :: rest) = some (s, rest) := by
  induction s generalizing row with
  | nil => exact readLines?_end hrest
  | cons c s ih =>
      rw [escapeText]
      split
      case isTrue hc =>
        subst hc
        split
        case isTrue =>
          have hread := readLines?_held (held_quote true) (ih (Nat.zero_le 2))
          exact hread
        case isFalse hfew =>
          exact readLines?_quote rfl (by decide) (leads_escapeText (Nat.not_lt.mp hfew) s hrest)
            (ih (Nat.not_lt.mp hfew))
      case isFalse hc =>
        rw [List.append_assoc]
        exact readLines?_held (held_escapeChar true hc) (ih (by decide))

/-! ### Literal strings -/

section
variable {quote : Char}

/-- Behind `row` quotes, no more than two of them in a row. -/
def Few (quote : Char) : (row : Nat) → List Char → Prop
  | _, [] => True
  | row, c :: cs => if c = quote then row + 1 ≤ 2 ∧ Few quote (row + 1) cs else Few quote 0 cs

/-- What `longestRun` does at a character. -/
def countRun (quote : Char) (run : Nat × Nat) (c : Char) : Nat × Nat :=
  if c = quote then (run.1 + 1, max run.2 (run.1 + 1)) else (0, run.2)

theorem longestRun_eq (cs : List Char) :
    longestRun quote cs = (cs.foldl (countRun quote) (0, 0)).2 := rfl

/-- Counting on never makes the longest row shorter. -/
theorem le_foldl_countRun (cs : List Char) (run : Nat × Nat) :
    run.2 ≤ (cs.foldl (countRun quote) run).2 := by
  induction cs generalizing run with
  | nil => exact Nat.le_refl _
  | cons c cs ih =>
      refine Nat.le_trans ?_ (ih _)
      unfold countRun
      split
      · exact Nat.le_max_left _ _
      · exact Nat.le_refl _

/-- If no more than two are counted in a row, there are no more. -/
theorem few_of_foldl_countRun {cs : List Char} {row best : Nat}
    (h : (cs.foldl (countRun quote) (row, best)).2 ≤ 2) : Few quote row cs := by
  induction cs generalizing row best with
  | nil => trivial
  | cons c cs ih =>
      rw [List.foldl_cons] at h
      unfold countRun at h
      rw [Few]
      split
      case isTrue hc =>
        rw [if_pos hc] at h
        have hbest := Nat.le_trans (le_foldl_countRun cs _) h
        exact ⟨Nat.le_trans (Nat.le_max_right _ _) hbest, ih h⟩
      case isFalse hc =>
        rw [if_neg hc] at h
        exact ih h

/-- A text with no row of quotes has no quote. -/
theorem notMem_of_longestRun_eq_zero {cs : List Char} (h : longestRun quote cs = 0) :
    quote ∉ cs := by
  -- from any run, since the best one never gets shorter
  have hzero : ∀ (cs : List Char) (run : Nat × Nat), (cs.foldl (countRun quote) run).2 = 0 →
      quote ∉ cs := by
    intro cs
    induction cs with
    | nil => simp
    | cons c cs ih =>
        intro run h
        have hrun : (countRun quote run c).2 ≤ (cs.foldl (countRun quote) _).2 :=
          le_foldl_countRun cs _
        rw [List.foldl_cons] at h
        rw [List.mem_cons, not_or]
        refine ⟨?_, ih _ h⟩
        rintro rfl
        rw [h, countRun, if_pos rfl] at hrun
        have hpos := Nat.le_trans (Nat.le_max_right _ _) hrun
        omega
  exact hzero cs (0, 0) h

/-- In a literal string, quotes that `write` lets pass are told from the closing ones. -/
theorem leads_literal {row : Nat} (hrow : row ≤ 2) {s rest : List Char} (hfew : Few quote row s)
    (hrest : rest.head? ≠ some quote) :
    Leads quote row (s ++ quote :: quote :: quote :: rest) := by
  induction s generalizing row with
  | nil => exact leads_closing hrow hrest
  | cons c s ih =>
      rw [Few] at hfew
      split at hfew
      case isTrue hc =>
        subst hc
        exact (ih hfew.1 hfew.2).cons
      case isFalse hc => exact leads_of_ne hrow hc _

end

/-- A literal string on one line. -/
theorem readLine?_literal {s : List Char} (hplain : ∀ c ∈ s, isPlain c = true)
    (hquote : '\'' ∉ s) (rest : List Char) :
    readLine? '\'' 0 (s ++ '\'' :: rest) = some (s, rest) := by
  induction s with
  | nil => simp [readLine?]
  | cons c s ih =>
      rw [List.forall_mem_cons] at hplain
      rw [List.mem_cons, not_or] at hquote
      have hread := ih hplain.2 hquote.2
      simp [readLine?, Ne.symm hquote.1, hplain.1, hread]

/-- A literal string over several lines. -/
theorem readLines?_literal {s rest : List Char} (hplain : ∀ c ∈ s, c = '\n' ∨ isPlain c = true)
    {row : Nat} (hrow : row ≤ 2) (hfew : Few '\'' row s) (hrest : rest.head? ≠ some '\'') :
    readLines? '\'' 0 (s ++ '\'' :: '\'' :: '\'' :: rest) = some (s, rest) := by
  induction s generalizing row with
  | nil => exact readLines?_end hrest
  | cons c s ih =>
      rw [List.forall_mem_cons] at hplain
      rw [Few] at hfew
      split at hfew
      case isTrue hc =>
        subst hc
        exact readLines?_quote rfl (by decide) (leads_literal hfew.1 hfew.2 hrest)
          (ih hplain.2 hfew.1 hfew.2)
      case isFalse hc =>
        have hread := ih hplain.2 (by decide) hfew
        rcases hplain.1 with rfl | hplain
        · simp [readLines?, isPlain, lineBreak, hread]
        · simp [readLines?, hc, hplain, hread]

/-! ### What is written -/

theorem lineBreak_of_isPlain {c : Char} (h : isPlain c = true) (cs : List Char) :
    lineBreak (c :: cs) = 0 := by
  have hline : c ≠ '\n' := by rintro rfl; exact absurd h (by decide)
  have hreturn : c ≠ '\r' := by rintro rfl; exact absurd h (by decide)
  simp [lineBreak.eq_def, hline, hreturn]

/-- Only a line feed is held by a line end, so that none is skipped behind the opening quotes. -/
theorem Held.lineBreak_eq_zero {c : Char} {cs : List Char} (h : Held true c cs) (hc : c ≠ '\n')
    (rest : List Char) : lineBreak (cs ++ rest) = 0 := by
  cases h with
  | plain hplain => exact lineBreak_of_isPlain hplain rest
  | kept _ hbreak => exact absurd hbreak hc
  | escape => rfl

/-- What stands behind the opening quotes of a string over several lines. -/
def opening (s : List Char) : List Char := if s.contains '\n' then ['\n'] else []

/-- A string that does not open with three quotes is one of a single line. -/
theorem readQuoted?_line {quote : Char} {cs : List Char}
    (h : ∀ rest, cs ≠ quote :: quote :: rest) : readQuoted? quote cs = readLine? quote 0 cs := by
  unfold readQuoted?
  split
  case h_1 a b rest =>
    rw [if_neg]
    rintro ⟨rfl, rfl⟩
    exact h rest rfl
  case h_2 => rfl

/-- The line end that `write` puts behind the opening quotes is skipped, and no other. -/
theorem readQuoted?_opening (quote : Char) (s : List Char) {cs : List Char}
    (h : '\n' ∉ s → lineBreak cs = 0) :
    readQuoted? quote (quote :: quote :: (opening s ++ cs)) = readLines? quote 0 cs := by
  rw [readQuoted?]
  simp only [and_self, if_true]
  unfold opening
  split
  case isTrue => simp [lineBreak, readLines?]
  case isFalse hbreaks => rw [List.nil_append, h (by simpa using hbreaks)]

section
variable (s : List Char) {rest : List Char}

/-- **A basic string is read back.** -/
theorem readQuoted?_basic (hrest : rest.head? ≠ some '"') :
    readQuoted? '"' (escapeText false 0 0 s ++ '"' :: rest) = some (s, rest) := by
  rw [readQuoted?_line, readLine?_escapeText]
  rintro rest' h
  cases s with
  | nil =>
      rw [escapeText, List.nil_append] at h
      exact hrest (by rw [(List.cons.inj h).2]; rfl)
  | cons c s =>
      rw [escapeText] at h
      split at h
      case isTrue => exact absurd (List.cons.inj h).1 (by decide)
      case isFalse hc =>
        obtain ⟨d, ds, hd, hne⟩ := (held_escapeChar false hc).ne_quote hc
        rw [hd] at h
        exact hne (List.cons.inj h).1

/-- **A basic string over several lines is read back.** -/
theorem readQuoted?_basicLines (hrest : rest.head? ≠ some '"') :
    readQuoted? '"' ('"' :: '"' :: (opening s ++
      (escapeText true 2 0 s ++ '"' :: '"' :: '"' :: rest))) = some (s, rest) := by
  rw [readQuoted?_opening, readLines?_escapeText s hrest (Nat.zero_le 2)]
  intro hbreaks
  cases s with
  | nil => rfl
  | cons c s =>
      rw [escapeText]
      split
      case isTrue => rfl
      case isFalse hc =>
        rw [List.append_assoc]
        exact (held_escapeChar true hc).lineBreak_eq_zero
          (fun h => hbreaks (by rw [h]; exact List.mem_cons_self)) _

/-- **A literal string is read back**, if it has no quotes and only plain characters. -/
theorem readQuoted?_literal (hplain : ∀ c ∈ s, isPlain c = true) (hquote : '\'' ∉ s)
    (hrest : rest.head? ≠ some '\'') :
    readQuoted? '\'' (s ++ '\'' :: rest) = some (s, rest) := by
  rw [readQuoted?_line, readLine?_literal hplain hquote]
  rintro rest' h
  cases s with
  | nil => exact hrest (by rw [(List.cons.inj h).2]; rfl)
  | cons c s => exact hquote (by rw [(List.cons.inj h).1]; exact List.mem_cons_self)

/-- **A literal string over several lines is read back**, if no more than two quotes are in a row.
-/
theorem readQuoted?_literalLines (hplain : ∀ c ∈ s, c = '\n' ∨ isPlain c = true)
    (hfew : Few '\'' 0 s) (hrest : rest.head? ≠ some '\'') :
    readQuoted? '\'' ('\'' :: '\'' :: (opening s ++
      (s ++ '\'' :: '\'' :: '\'' :: rest))) = some (s, rest) := by
  rw [readQuoted?_opening, readLines?_literal hplain (Nat.zero_le 2) hfew hrest]
  intro hbreaks
  cases s with
  | nil => rfl
  | cons c s =>
      have hc : c ≠ '\n' := fun h => hbreaks (by rw [h]; exact List.mem_cons_self)
      exact lineBreak_of_isPlain ((hplain c List.mem_cons_self).resolve_left hc) _

/-- What a literal string can hold: no control character but line breaks. -/
theorem plain_of_any {s : List Char} (h : (!s.any fun c => c != '\n' && !isPlain c) = true) :
    ∀ c ∈ s, c = '\n' ∨ isPlain c = true := by
  have hplain : ∀ c ∈ s, ¬ c = '\n' → isPlain c = true := by simpa using h
  exact fun c hc => Decidable.or_iff_not_imp_left.mpr (hplain c hc)

/-- **A written string is read back**, whatever its text is. -/
theorem readQuoted?_write (hrest : rest.head? ≠ some '"' ∧ rest.head? ≠ some '\'') :
    ∃ quote cs, (quote = '"' ∨ quote = '\'') ∧ write s ++ rest = quote :: cs ∧
      readQuoted? quote cs = some (s, rest) := by
  have hbasic := readQuoted?_basic s hrest.1
  have hbasicLines := readQuoted?_basicLines s hrest.1
  -- one case for each form, in the order in which `write` tries them
  unfold write
  simp only
  split
  case isTrue => exact ⟨'"', _, .inl rfl, by simp, hbasic⟩
  split
  case isTrue h =>
    simp only [Bool.and_eq_true, decide_eq_true_eq] at h
    obtain ⟨⟨hcontrols, hsingles⟩, hbreaks⟩ := h
    have hplain : ∀ c ∈ s, isPlain c = true := by
      intro c hc
      refine (plain_of_any hcontrols c hc).resolve_left ?_
      rintro rfl
      simp [hc] at hbreaks
    exact ⟨'\'', _, .inr rfl, by simp,
      readQuoted?_literal s hplain (notMem_of_longestRun_eq_zero hsingles) hrest.2⟩
  split
  case isTrue => exact ⟨'"', _, .inl rfl, by simp [opening], hbasicLines⟩
  split
  case isTrue h =>
    simp only [Bool.and_eq_true, decide_eq_true_eq] at h
    have hfew := few_of_foldl_countRun (longestRun_eq s ▸ h.2)
    exact ⟨'\'', _, .inr rfl, by simp [opening],
      readQuoted?_literalLines s (plain_of_any h.1) hfew hrest.2⟩
  split
  case isTrue h =>
    have hbreaks : '\n' ∈ s := by simpa using h
    exact ⟨'"', _, .inl rfl, by simp [opening, hbreaks], hbasicLines⟩
  case isFalse => exact ⟨'"', _, .inl rfl, by simp, hbasic⟩

end

end SqlCaret.Toml
