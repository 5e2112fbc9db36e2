import SqlCaret.Proofs.Text.Cut
import SqlCaret.Text.Line

/-!
# Text — lines around a cut

A cut between `a` and `b` stands on the line that the last line feed of `a` opens and the first
one of `b` ends.  `lastLine a` is the part of that line before the cut and `firstLine b` the part
behind it.

* `getElem?_split`: among the lines of `a ++ b`, that line has as many others before it as `a`
  has line feeds, and these are its start, its characters and its end.
* `locate_lines`: it is the line that `Line.locate` finds for a byte offset at the cut or inside
  the next character.
* `exists_cut_of_getElem?_split`: every line of a text is found like this.
-/

namespace SqlCaret.Line

/-! ### The parts of the line at a cut -/

/-- The characters of a text behind its last line feed. -/
def lastLine : List Char → List Char
  | [] => []
  | c :: cs => if '\n' ∈ c :: cs then lastLine cs else c :: cs

/-- The characters of a text up to and with its last line feed. -/
def fullLines : List Char → List Char
  | [] => []
  | c :: cs => if '\n' ∈ c :: cs then c :: fullLines cs else []

/-- The characters of a text before its first line feed. -/
def firstLine (cs : List Char) : List Char := cs.takeWhile (· != '\n')

theorem fullLines_append_lastLine (cs : List Char) : fullLines cs ++ lastLine cs = cs := by
  induction cs with
  | nil => rfl
  | cons c cs ih =>
      simp only [fullLines, lastLine]
      split
      · rw [List.cons_append, ih]
      · rfl

theorem lastLine_eq_self {cs : List Char} (h : '\n' ∉ cs) : lastLine cs = cs := by
  cases cs with
  | nil => rfl
  | cons c cs => rw [lastLine, if_neg h]

theorem size_fullLines_add (cs : List Char) :
    Utf8.size (fullLines cs) + Utf8.size (lastLine cs) = Utf8.size cs := by
  rw [← Utf8.size_append, fullLines_append_lastLine]

/-- One more character goes to the last line, and a line feed empties it. -/
theorem lastLine_concat (cs : List Char) (c : Char) :
    lastLine (cs ++ [c]) = if c = '\n' then [] else lastLine cs ++ [c] := by
  induction cs with
  | nil =>
      by_cases h : c = '\n'
      · subst h; rfl
      · rw [if_neg h]
        exact lastLine_eq_self (by simpa [eq_comm] using h)
  | cons d cs ih =>
      rw [List.cons_append, lastLine, ih, lastLine]
      by_cases h : c = '\n'
      · simp [h]
      · have h' : ¬ '\n' = c := fun e => h e.symm
        by_cases hm : '\n' ∈ d :: cs <;> simp_all

/-- A text whose last line is empty ends with a line feed, if it is not empty. -/
theorem getLast?_ne_of_lastLine_eq_nil {cs : List Char} (h : lastLine cs = []) {c : Char}
    (hc : c ≠ '\n') : cs.getLast? ≠ some c := by
  rcases List.eq_nil_or_concat cs with rfl | ⟨ds, d, rfl⟩
  · simp
  · rw [List.concat_eq_append] at *
    rw [lastLine_concat] at h
    by_cases hd : d = '\n'
    · subst hd
      simpa [eq_comm] using hc
    · simp [hd] at h

theorem ne_newline_of_mem_firstLine {cs : List Char} {c : Char} (h : c ∈ firstLine cs) :
    c ≠ '\n' := by
  have := List.all_takeWhile (p := (· != '\n')) (l := cs)
  rw [List.all_eq_true] at this
  simpa using this c h

/-- A text whose first line is empty is empty or starts with a line feed. -/
theorem firstLine_eq_nil_iff {cs : List Char} :
    firstLine cs = [] ↔ cs = [] ∨ cs.head? = some '\n' := by
  cases cs with
  | nil => simp [firstLine]
  | cons c cs => by_cases h : c = '\n' <;> simp [firstLine, h]

/-! ### The line at a cut -/

theorem split_newline (start : Nat) (cs : List Char) :
    split start ('\n' :: cs) = ⟨start, [], true⟩ :: split (start + 1) cs := by
  rw [split, if_pos rfl]

theorem split_other {start : Nat} {c : Char} {cs : List Char} (h : c ≠ '\n') {l : Line}
    {ls : List Line} (hs : split (start + c.utf8Size) cs = l :: ls) :
    split start (c :: cs) = ⟨start, c :: l.chars, l.ended⟩ :: ls := by
  rw [split, if_neg h, hs]

/-- The first line of a text. -/
theorem exists_split_eq_cons (start : Nat) (cs : List Char) :
    ∃ ls, split start cs = ⟨start, firstLine cs, decide ('\n' ∈ cs)⟩ :: ls := by
  induction cs generalizing start with
  | nil => exact ⟨[], rfl⟩
  | cons c cs ih =>
      by_cases h : c = '\n'
      · subst h
        exact ⟨split (start + 1) cs, by simp [split_newline, firstLine]⟩
      · obtain ⟨ls, hls⟩ := ih (start + c.utf8Size)
        have h' : ¬ '\n' = c := fun e => h e.symm
        exact ⟨ls, by simp [split_other h hls, firstLine, h, h']⟩

/-- **The line at a cut.** -/
theorem getElem?_split (start : Nat) (a b : List Char) :
    (split start (a ++ b))[a.count '\n']? =
      some ⟨start + Utf8.size (fullLines a), lastLine a ++ firstLine b, decide ('\n' ∈ b)⟩ := by
  induction a generalizing start with
  | nil =>
      obtain ⟨ls, hls⟩ := exists_split_eq_cons start b
      simp [hls, fullLines, lastLine]
  | cons c a ih =>
      by_cases h : c = '\n'
      · subst h
        rw [List.cons_append, split_newline, List.count_cons_self, List.getElem?_cons_succ, ih]
        have hn : ('\n' : Char).utf8Size = 1 := by decide
        simp [fullLines, lastLine, hn, Nat.add_assoc]
      · obtain ⟨ls, hls⟩ := exists_split_eq_cons (start + c.utf8Size) (a ++ b)
        have ih := ih (start + c.utf8Size)
        have h' : ¬ '\n' = c := fun e => h e.symm
        rw [List.cons_append, split_other h hls, List.count_cons_of_ne h]
        rw [hls] at ih
        by_cases ha : '\n' ∈ a
        · -- the line lies behind the first one, which alone has changed
          obtain ⟨k, hk⟩ : ∃ k, a.count '\n' = k + 1 :=
            Nat.exists_eq_add_one.mpr (List.count_pos_iff.mpr ha)
          rw [hk, List.getElem?_cons_succ] at ih ⊢
          rw [ih]
          simp [fullLines, lastLine, ha, Nat.add_assoc]
        · have hk : a.count '\n' = 0 := List.count_eq_zero.mpr ha
          rw [hk, List.getElem?_cons_zero] at ih ⊢
          have hl := Option.some.inj ih
          simp only [Line.mk.injEq] at hl
          simp [fullLines, lastLine, ha, h', hl.2.1, lastLine_eq_self ha]

/-- **Every line is at a cut**, right behind a line feed or at the start of the text. -/
theorem exists_cut_of_getElem?_split {start k : Nat} {cs : List Char} {l : Line}
    (h : (split start cs)[k]? = some l) :
    ∃ a b, cs = a ++ b ∧ lastLine a = [] ∧
      l = ⟨start + Utf8.size a, firstLine b, decide ('\n' ∈ b)⟩ := by
  -- which line it is says how many line feeds stand in front of it
  suffices hab : ∃ a b, cs = a ++ b ∧ lastLine a = [] ∧ a.count '\n' = k by
    obtain ⟨a, b, rfl, ha, rfl⟩ := hab
    have hsize := size_fullLines_add a
    rw [getElem?_split, ha] at h
    rw [ha, Utf8.size_nil, Nat.add_zero] at hsize
    rw [hsize] at h
    exact ⟨a, b, rfl, ha, (Option.some.inj h).symm⟩
  induction cs generalizing start k with
  | nil =>
      cases k with
      | zero => exact ⟨[], [], rfl, rfl, rfl⟩
      | succ k => simp [split] at h
  | cons c cs ih =>
      cases k with
      | zero => exact ⟨[], c :: cs, rfl, rfl, rfl⟩
      | succ k =>
          by_cases hc : c = '\n'
          · subst hc
            rw [split_newline, List.getElem?_cons_succ] at h
            obtain ⟨a, b, rfl, ha, hk⟩ := ih h
            exact ⟨'\n' :: a, b, rfl, by simp [lastLine, ha], by simp [hk]⟩
          · obtain ⟨ls, hls⟩ := exists_split_eq_cons (start + c.utf8Size) cs
            rw [split_other hc hls, List.getElem?_cons_succ] at h
            obtain ⟨a, b, rfl, ha, hk⟩ := ih (k := k + 1) (by rw [hls]; exact h)
            have hm : '\n' ∈ a := List.count_pos_iff.mp (by omega)
            exact ⟨c :: a, b, rfl, by simp [lastLine, hm, ha], by simp [hc, hk]⟩

/-! ### The line of an offset -/

theorem getElem?_locate (offset : Nat) {ls : List Line} (h : ls ≠ []) :
    ls[(locate offset ls).1]? = some (locate offset ls).2 := by
  induction ls with
  | nil => exact absurd rfl h
  | cons l ls ih =>
      cases ls with
      | nil => rfl
      | cons m ls =>
          rw [locate]
          split
          · exact ih (by simp)
          · rfl

/-- Only the starts of the later lines decide how many lines come before an offset. -/
theorem locate_fst_congr (offset : Nat) (l m : Line) (ls : List Line) :
    (locate offset (l :: ls)).1 = (locate offset (m :: ls)).1 := by
  cases ls with
  | nil => rfl
  | cons x ls =>
      simp only [locate]
      split <;> rfl

theorem locate_fst_eq_zero_of_le {m n : Nat} (h : m ≤ n) {l : Line} {ls : List Line}
    (hn : (locate n (l :: ls)).1 = 0) : (locate m (l :: ls)).1 = 0 := by
  cases ls with
  | nil => rfl
  | cons x ls =>
      simp only [locate] at hn ⊢
      split at hn
      · simp at hn
      · rw [if_neg (by omega)]

theorem locate_split_fst (start offset : Nat) (cs : List Char) :
    (locate (start + offset) (split start cs)).1 =
      (Utf8.takeBytes offset cs).count '\n' := by
  -- on the text, with the offset counted from the line's start on
  induction cs generalizing start offset with
  | nil => rfl
  | cons c cs ih =>
      obtain ⟨ls, hls⟩ := exists_split_eq_cons (start + c.utf8Size) cs
      by_cases hc : c = '\n'
      · subst hc
        have hn : ('\n' : Char).utf8Size = 1 := by decide
        rw [hn] at hls
        rw [split_newline, hls, locate, Utf8.takeBytes, hn]
        by_cases h : 1 ≤ offset
        · have ih := ih (start + 1) (offset - 1)
          rw [hls, show start + 1 + (offset - 1) = start + offset by omega] at ih
          rw [if_pos (by simpa using h), if_pos h, List.count_cons_self]
          exact congrArg (· + 1) ih
        -- the line feed itself is not passed
        · rw [if_neg (by simpa using h), if_neg h]
          rfl
      · rw [split_other hc hls, locate_fst_congr _ _ ⟨start + c.utf8Size, firstLine cs, _⟩,
          Utf8.takeBytes]
        by_cases h : c.utf8Size ≤ offset
        · have ih := ih (start + c.utf8Size) (offset - c.utf8Size)
          rw [hls, show start + c.utf8Size + (offset - c.utf8Size) = start + offset by omega]
            at ih
          rw [if_pos h, List.count_cons_of_ne hc]
          exact ih
        · have ih := ih (start + c.utf8Size) 0
          rw [hls, Nat.add_zero, Utf8.takeBytes_zero, List.count_nil] at ih
          rw [if_neg h, List.count_nil]
          exact locate_fst_eq_zero_of_le (by omega) ih

/-- **The line of an offset** is the line at the cut there. -/
theorem locate_lines (offset : Nat) (text : List Char) :
    locate offset (lines text) =
      let a := Utf8.takeBytes offset text
      let b := Utf8.dropBytes offset text
      (a.count '\n',
        ⟨Utf8.size (fullLines a), lastLine a ++ firstLine b, decide ('\n' ∈ b)⟩) := by
  have hfst := locate_split_fst 0 offset text
  rw [Nat.zero_add] at hfst
  have hline := getElem?_locate offset (lines_ne_nil text)
  have hcut := getElem?_split 0 (Utf8.takeBytes offset text) (Utf8.dropBytes offset text)
  rw [Utf8.takeBytes_append_dropBytes, Nat.zero_add] at hcut
  rw [lines, hfst, hcut] at hline
  exact Prod.ext hfst (Option.some.inj hline).symm

end SqlCaret.Line
