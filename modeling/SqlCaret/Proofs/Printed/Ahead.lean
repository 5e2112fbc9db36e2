import SqlCaret.Proofs.Outline.Depth
import SqlCaret.Proofs.Printed.Lexed
import SqlCaret.Proofs.Tree.Bare
import SqlCaret.Syntax.Parse

/-!
# Printed — ahead

What the grammar sees of printed words.  `Next c w c'` says that the word `w` stands ahead of the
cursor `c` and that `c'` is behind it, `Through c ws c'` the same of words one after the other.
Such words get there whatever white space is between them (`exists_through`).

`Starts c` holds where a printed statement begins, and `Follows c` where one may end: every
question that the rules ask at such a place has one answer for all statements.
-/

namespace SqlCaret

open SqlCaret.Tree

namespace Cursor

theorem isAny_eq (c : Cursor) (n : Nat) (ks : List Keyword) :
    c.isAny n ks = ks.any (c.isKeyword n) := by
  unfold isAny isKeyword
  cases c.keyword? n with
  | none => simp
  | some k => exact List.contains_eq_any_beq

end Cursor

namespace Printed

/-- The word `w` stands ahead of the first cursor, and the second is behind it. -/
inductive Next : Cursor → Word → Cursor → Prop where
  | mk {w : Word} {prev : Option Mark} {m : Mark} {ms : List Mark} {index : Nat}
      (hkind : m.kind = w.kind) (hword : m.keyword = w.keyword?)
      (hseparates : m.separates = false) :
      Next ⟨prev, m :: ms, index⟩ w ⟨some m, ms, index + 1⟩

namespace Next

variable {c c' : Cursor} {w : Word}

theorem ahead_ne_nil (h : Next c w c') : c.ahead ≠ [] := by
  cases h
  exact List.cons_ne_nil _ _

theorem kind_zero (h : Next c w c') : c.kind 0 = w.kind := by
  obtain ⟨hkind, -, -⟩ := h
  exact hkind

theorem keyword?_zero (h : Next c w c') : c.keyword? 0 = w.keyword? := by
  obtain ⟨-, hword, -⟩ := h
  exact hword

/-- What is seen further ahead is seen from behind the word, one mark less far. -/
theorem keyword?_succ (h : Next c w c') (n : Nat) : c.keyword? (n + 1) = c'.keyword? n := by
  cases h
  rfl

/-- A question for a kind of token is one about the word. -/
theorem atKind (h : Next c w c') (k : Kind) : c.atKind k = (w.kind == k) := by
  rw [Cursor.atKind, h.kind_zero]

/-- A question for a keyword is one about the word. -/
theorem atKeyword (h : Next c w c') (k : Keyword) :
    c.atKeyword k = (w.keyword? == some k) := by
  rw [Cursor.atKeyword, Cursor.isKeyword, h.keyword?_zero]

/-- The second keyword ahead is the one that stands behind the word. -/
theorem isKeyword_one (h : Next c w c') (k : Keyword) : c.isKeyword 1 k = c'.atKeyword k := by
  rw [Cursor.atKeyword, Cursor.isKeyword, Cursor.isKeyword, h.keyword?_succ]

theorem isAny_one (h : Next c w c') (ks : List Keyword) : c.isAny 1 ks = c'.isAny 0 ks := by
  rw [Cursor.isAny, Cursor.isAny, h.keyword?_succ]

theorem atSeparator (h : Next c w c') : c.atSeparator = false := by
  obtain ⟨-, -, hseparates⟩ := h
  simp [Cursor.atSeparator, Cursor.spellsSeparator, hseparates]

/-- A batch does not end in front of a word. -/
theorem atBatchEnd (h : Next c w c') : c.atBatchEnd = false := by
  rw [Cursor.atBatchEnd, h.atSeparator, Bool.or_false]
  cases h
  rfl

/-- Taking the word leads behind it. -/
theorem take_snd (h : Next c w c') : c.take.2 = c' := by
  cases h
  rfl

theorem kinds_take (h : Next c w c') : kindsOfList Mark.kind c.take.1 = [.leaf w.kind] := by
  obtain ⟨hkind, -, -⟩ := h
  simp [Cursor.take, hkind]

/-- From behind the word, it is what a rule sees when it looks back. -/
theorem prevIsAny (h : Next c w c') (ks : List Keyword) :
    c'.prevIsAny ks = w.keyword?.any ks.contains := by
  obtain ⟨-, hword, -⟩ := h
  rw [Cursor.prevIsAny, Option.bind_some, hword]
  cases w.keyword? <;> rfl

/-- No word that is printed makes the next one a name. -/
theorem afterNameIntro (h : Next c w c') : c'.afterNameIntro = false := by
  have hkind : c'.prevKind = w.kind := by
    obtain ⟨hkind, -, -⟩ := h
    exact hkind
  rw [Cursor.afterNameIntro, h.prevIsAny, hkind]
  cases w <;> rfl

end Next

/-- The words stand ahead of the first cursor, and the second is behind them. -/
inductive Through : Cursor → List Word → Cursor → Prop where
  | nil (c : Cursor) : Through c [] c
  | cons {c c₁ c' : Cursor} {w : Word} {ws : List Word} (h : Next c w c₁)
      (h' : Through c₁ ws c') : Through c (w :: ws) c'

namespace Through

variable {c c' : Cursor}

theorem eq_of_nil (h : Through c [] c') : c' = c := by
  cases h
  rfl

/-- The first word is ahead, and the others are behind it. -/
theorem next {w : Word} {ws : List Word} (h : Through c (w :: ws) c') :
    ∃ c₁, Next c w c₁ ∧ Through c₁ ws c' := by
  cases h with
  | cons h h' => exact ⟨_, h, h'⟩

/-- Words in two parts are passed one part after the other. -/
theorem split {ws ws' : List Word} (h : Through c (ws ++ ws') c') :
    ∃ c₁, Through c ws c₁ ∧ Through c₁ ws' c' := by
  induction ws generalizing c with
  | nil => exact ⟨c, .nil c, h⟩
  | cons w ws ih =>
      obtain ⟨c₁, hw, h₁⟩ := h.next
      obtain ⟨c₂, h₂, h'⟩ := ih h₁
      exact ⟨c₂, .cons hw h₂, h'⟩

/-- The words of a condition and what stands behind them. -/
theorem condition {ws : List Word} (h : Through c (.one :: .equals :: .one :: ws) c') :
    ∃ c₁, Through c [.one, .equals, .one] c₁ ∧ Through c₁ ws c' :=
  @split c c' [.one, .equals, .one] ws h

end Through

/-! ### From lexemes to words -/

/-- The mark of a printed word says what the word is, at whatever place of its line it stands. -/
theorem next_ofLexeme (w : Word) (o b : Bool) (prev : Option Mark) (ms : List Mark)
    (index : Nat) :
    Next ⟨prev, Mark.ofLexeme defaultSeparator o b w.lexeme :: ms, index⟩ w
      ⟨some (Mark.ofLexeme defaultSeparator o b w.lexeme), ms, index + 1⟩ := by
  refine .mk rfl ?_ ?_
  · revert o b; cases w <;> decide +kernel
  · revert o b; cases w <;> decide +kernel

theorem isTrivia_word (w : Word) : w.lexeme.kind.isTrivia = false := by
  cases w <;> rfl

/-- What is between the words is passed over. -/
theorem isTrivia_of_mem_blankKinds {k : Kind} (h : k ∈ blankKinds) : k.isTrivia = true := by
  cases k <;> first | rfl | exact absurd h (by decide)

/-- **Words get there whatever white space is between them.** -/
theorem exists_through {ls : List Lexeme} {ws : List Word} (h : Spaced ls ws)
    {rest : List Lexeme} {c : Cursor} {o b : Bool}
    (hc : c.ahead = Mark.read defaultSeparator o b (ls ++ rest)) :
    ∃ c' o' b', Through c ws c' ∧ c'.ahead = Mark.read defaultSeparator o' b' rest := by
  induction h generalizing c o b with
  | nil => exact ⟨c, o, b, .nil c, hc⟩
  | blank hl _ ih =>
      rw [List.cons_append, Mark.read, if_pos (isTrivia_of_mem_blankKinds hl)] at hc
      exact ih hc
  | word w _ ih =>
      rw [List.cons_append, Mark.read, isTrivia_word] at hc
      obtain ⟨prev, ahead, index⟩ := c
      subst hc
      obtain ⟨c', o', b', hthrough, hahead⟩ := ih (c := ⟨_, _, index + 1⟩) rfl
      exact ⟨c', o', b', .cons (next_ofLexeme w o b _ _ _) hthrough, hahead⟩

/-! ### Where a statement begins -/

/-- The words that printed statements begin with. -/
def Word.starts : Word → Bool
  | PRINT | BEGIN | IF | WHILE => true
  | _ => false

/-- Every printed statement begins with a word that says what it is. -/
theorem exists_words (p : Printed) : ∃ w ws, p.words = w :: ws ∧ w.starts = true := by
  cases p with
  | simple gap semicolon => cases semicolon <;> exact ⟨.PRINT, _, rfl, rfl⟩
  | block => exact ⟨.BEGIN, _, rfl, rfl⟩
  | tryCatch tried => cases tried; exact ⟨.BEGIN, _, rfl, rfl⟩
  | ifThen => exact ⟨.IF, _, rfl, rfl⟩
  | ifElse => exact ⟨.IF, _, rfl, rfl⟩
  | loop => exact ⟨.WHILE, _, rfl, rfl⟩

/-- The first word of a printed statement stands ahead. -/
def Starts (c : Cursor) : Prop := ∃ w c', Next c w c' ∧ w.starts = true

/-- In front of the words of a statement, one starts. -/
theorem Through.starts {c c' : Cursor} {p : Printed} (h : Through c p.words c') : Starts c := by
  obtain ⟨w, ws', hp, hw⟩ := p.exists_words
  rw [hp] at h
  obtain ⟨c₁, hnext, -⟩ := h.next
  exact ⟨w, c₁, hnext, hw⟩

namespace Starts

variable {c : Cursor}

theorem atSeparator (h : Starts c) : c.atSeparator = false := by
  obtain ⟨w, c', hnext, -⟩ := h
  exact hnext.atSeparator

theorem atBatchEnd (h : Starts c) : c.atBatchEnd = false := by
  obtain ⟨w, c', hnext, -⟩ := h
  exact hnext.atBatchEnd

theorem kind_zero (h : Starts c) : c.kind 0 = .word := by
  obtain ⟨w, c', hnext, hw⟩ := h
  rw [hnext.kind_zero]
  cases w <;> first | rfl | cases hw

/-- A statement begins with a word, so with no token of another kind. -/
theorem atKind (h : Starts c) {k : Kind} (hk : k ≠ .word) : c.atKind k = false := by
  rw [Cursor.atKind, h.kind_zero]
  exact beq_eq_false_iff_ne.mpr hk.symm

/-- Four keywords begin a printed statement. -/
theorem keyword?_zero (h : Starts c) :
    c.keyword? 0 = some .PRINT ∨ c.keyword? 0 = some .BEGIN ∨ c.keyword? 0 = some .IF ∨
      c.keyword? 0 = some .WHILE := by
  obtain ⟨w, c', hnext, hw⟩ := h
  rw [hnext.keyword?_zero]
  cases w <;> first | exact .inl rfl | exact .inr (.inl rfl) | exact .inr (.inr (.inl rfl)) |
    exact .inr (.inr (.inr rfl)) | cases hw

/-- The keywords that printed statements begin with. -/
def keywords : List Keyword := [.PRINT, .BEGIN, .IF, .WHILE]

/-- A keyword that none of them begins with is not ahead. -/
theorem atKeyword (h : Starts c) {k : Keyword} (hk : k ∉ keywords) : c.atKeyword k = false := by
  rw [Cursor.atKeyword, Cursor.isKeyword]
  refine beq_eq_false_iff_ne.mpr fun heq => hk ?_
  rcases h.keyword?_zero with h | h | h | h <;> rw [h] at heq <;> cases heq <;> decide

/-- No statement begins with `ELSE`, so an `IF` in front of it has no second branch. -/
theorem atKeyword_else (h : Starts c) : c.atKeyword .ELSE = false := h.atKeyword (by decide)

/-- Nothing is closed where a statement starts. -/
theorem atClosingEnd (h : Starts c) : c.atClosingEnd = false := by
  rw [Cursor.atClosingEnd, h.atKeyword (by decide), Bool.false_and]

/-- The grammar starts a statement here, unless a word in front takes this one for a name. -/
theorem startsStatement (h : Starts c) (hprev : c.afterNameIntro = false) :
    c.startsStatement = true := by
  rw [Cursor.startsStatement, h.kind_zero, hprev]
  rcases h.keyword?_zero with hk | hk | hk | hk <;> rw [hk] <;> rfl

/-- A branch or a loop finds its statement here. -/
theorem admitsStatement (h : Starts c) : c.admitsStatement = true := by
  rw [Cursor.admitsStatement, h.atBatchEnd, h.atKind (by decide), h.atKind (by decide),
    h.atKeyword_else, h.atClosingEnd]
  rfl

/-- No row of statements ends where a statement begins. -/
theorem closes (h : Starts c) (k : Closer) : k.closes c = false := by
  cases k with
  | never => rfl
  | block => rw [Closer.closes, Cursor.closesBlock, h.atKeyword (by decide), Bool.false_and]
  | tryEnd => rw [Closer.closes, h.atKeyword (by decide), Bool.false_and]
  | catchEnd => rw [Closer.closes, h.atKeyword (by decide), Bool.false_and]

end Starts

/-! ### Where a statement ends -/

/-- What may stand behind a printed statement. -/
inductive Follows (c : Cursor) : Prop where
  | nothing (h : c.ahead = [])
  | separator (h : c.atSeparator = true) (hkind : c.kind 0 = .word)
      (hword : c.keyword? 0 = none)
  | starts (h : Starts c)
  | atElse {c' : Cursor} (h : Next c .ELSE c')
  | atEnd {c' : Cursor} (h : Next c .END c') (hc : c'.atKeyword .CONVERSATION = false)

namespace Follows

variable {c : Cursor}

/-- No semicolon stands behind a statement: it would be the statement's own. -/
theorem atKind_semicolon (h : Follows c) : c.atKind .semicolon = false := by
  cases h with
  | nothing h => simp [Cursor.atKind, Cursor.kind, h]
  | separator _ hkind _ => rw [Cursor.atKind, hkind]; rfl
  | starts h => exact h.atKind (by decide)
  | atElse h => rw [h.atKind]; rfl
  | atEnd h _ => rw [h.atKind]; rfl

/-- The keywords that may stand behind a statement. -/
def keywords : List Keyword := Starts.keywords ++ [.ELSE, .END]

theorem atKeyword (h : Follows c) {k : Keyword} (hk : k ∉ keywords) :
    c.atKeyword k = false := by
  have hne : ∀ k' ∈ keywords, some k' ≠ some k := by
    rintro k' hk' ⟨⟩
    exact hk hk'
  cases h with
  | nothing h => simp [Cursor.atKeyword, Cursor.isKeyword, Cursor.keyword?, h]
  | separator _ _ hword => rw [Cursor.atKeyword, Cursor.isKeyword, hword]; rfl
  | starts h => exact h.atKeyword fun hmem => hk (List.mem_append_left _ hmem)
  | atElse h =>
      rw [h.atKeyword]
      exact beq_eq_false_iff_ne.mpr (hne .ELSE (by decide))
  | atEnd h _ =>
      rw [h.atKeyword]
      exact beq_eq_false_iff_ne.mpr (hne .END (by decide))

theorem isAny_zero (h : Follows c) {ks : List Keyword} (hks : ∀ k ∈ ks, k ∉ keywords) :
    c.isAny 0 ks = false := by
  rw [Cursor.isAny_eq, List.any_eq_false]
  intro k hk
  rw [← Cursor.atKeyword, h.atKeyword (hks k hk)]
  exact Bool.false_ne_true

/-- Where a row of statements ends, no `ELSE` stands. -/
theorem atKeyword_else (h : Follows c) {k : Closer} (hc : (c.atBatchEnd || k.closes c) = true) :
    c.atKeyword .ELSE = false := by
  cases h with
  | nothing h => simp [Cursor.atKeyword, Cursor.isKeyword, Cursor.keyword?, h]
  | separator _ _ hword => rw [Cursor.atKeyword, Cursor.isKeyword, hword]; rfl
  | starts h => exact h.atKeyword_else
  | atElse h =>
      have hend : c.atKeyword .END = false := by rw [h.atKeyword]; rfl
      have hcloses : k.closes c = false := by
        cases k <;> simp [Closer.closes, Cursor.closesBlock, hend]
      rw [h.atBatchEnd, hcloses] at hc
      cases hc
  | atEnd h _ => rw [h.atKeyword]; rfl

end Follows

/-- What may stand behind a row of statements may stand in front of it. -/
theorem Through.follows_row {c c' : Cursor} {r : Row} (h : Through c r.words c')
    (hc' : Follows c') : Follows c := by
  cases r with
  | nil =>
      rw [← h.eq_of_nil]
      exact hc'
  | cons gap first others =>
      obtain ⟨c₁, hfirst, -⟩ := h.split
      exact .starts hfirst.starts

end Printed

end SqlCaret
