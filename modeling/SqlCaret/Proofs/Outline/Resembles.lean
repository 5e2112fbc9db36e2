import SqlCaret.Syntax.Outline.Script

/-!
# Outline — resembling cursors

What the grammar asks at a cursor.  `c.Resembles d` says that it gets the same answers at both to
everything; in front of a separator line it only asks about the mark ahead.  Each question of the
grammar then has one answer at both, and so do the opening and the going on of a simple statement.

There is no asking before some words: the grammar has looked at them from the word before, or
nothing else can stand there.  A separator line that starts with none of them is `Guarded`: in
front of it the grammar always asks, and stops.
-/

namespace SqlCaret

/-- The words that the grammar passes without asking for a separator line first: it has looked at
them from the word before, or nothing else can stand there. -/
def Keyword.unguarded : List Keyword := [.BEGIN, .TRY, .CATCH, .ELSE]

/-- A mark that spells the separator is a word, and none that the grammar passes without asking. -/
def Mark.Guarded (m : Mark) : Prop :=
  m.separates = true → m.kind = .word ∧ ∀ k ∈ Keyword.unguarded, m.keyword ≠ some k

namespace Cursor

/-- A separator line that starts here starts with a word, and with none that the grammar passes
without asking. -/
def Guarded (c : Cursor) : Prop :=
  c.atSeparator = true → c.kind 0 = .word ∧ ∀ k ∈ Keyword.unguarded, c.atKeyword k = false

/-- The grammar gets the same answers at both cursors. -/
structure Resembles (c d : Cursor) : Prop where
  head : c.ahead.head? = d.ahead.head?
  atSeparator : c.atSeparator = d.atSeparator
  prevIsAny : ∀ ks, c.prevIsAny ks = d.prevIsAny ks
  keyword?_one : c.atSeparator = false → c.keyword? 1 = d.keyword? 1
  startsStatement : c.atSeparator = false → c.startsStatement = d.startsStatement
  startsModule : c.atSeparator = false → c.startsModule = d.startsModule

namespace Guarded

variable {c : Cursor}

/-- Whether a cursor is guarded is told by the mark ahead. -/
theorem of_head (h : ∀ m ∈ c.ahead.head?, m.Guarded) : c.Guarded := by
  intro hsep
  obtain ⟨prev, ahead, index⟩ := c
  cases ahead with
  | nil => cases hsep
  | cons m ms =>
      simp only [atSeparator, spellsSeparator, Bool.and_eq_true] at hsep
      obtain ⟨hkind, hkeyword⟩ := h m rfl hsep.1.1
      refine ⟨hkind, fun k hk => ?_⟩
      simpa [atKeyword, isKeyword, keyword?] using hkeyword k hk

/-- Guarded marks ahead guard the cursor. -/
theorem of_ahead (h : ∀ m ∈ c.ahead, m.Guarded) : c.Guarded :=
  .of_head fun m hm => h m (List.mem_of_mem_head? hm)

/-- In front of a word that the grammar passes unasked, no separator line starts. -/
theorem atSeparator_of_keyword (h : c.Guarded) {k : Keyword} (hk : k ∈ Keyword.unguarded)
    (hc : c.atKeyword k = true) : c.atSeparator = false := by
  rw [← Bool.not_eq_true]
  intro hsep
  rw [(h hsep).2 k hk] at hc
  cases hc

theorem atSeparator_of_isAny (h : c.Guarded) {ks : List Keyword}
    (hks : ∀ k ∈ ks, k ∈ Keyword.unguarded) (hc : c.isAny 0 ks = true) : c.atSeparator = false := by
  unfold isAny at hc
  split at hc
  · rename_i k hk
    refine h.atSeparator_of_keyword (hks k (by simpa using hc)) ?_
    rw [atKeyword, isKeyword, hk, beq_self_eq_true]
  · cases hc

/-- A separator is a word, so none is ahead where another kind of token is. -/
theorem atSeparator_of_kind (h : c.Guarded) {k : Kind} (hk : k ≠ .word)
    (hc : c.atKind k = true) : c.atSeparator = false := by
  rw [← Bool.not_eq_true]
  intro hsep
  rw [atKind, (h hsep).1, beq_iff_eq] at hc
  exact hk hc.symm

/-- The second of two words that the grammar passes together starts no separator line. -/
theorem atSeparator_take (h : c.take.2.Guarded) {k : Keyword} (hk : k ∈ Keyword.unguarded)
    (hc : c.isKeyword 1 k = true) : c.take.2.atSeparator = false := by
  refine h.atSeparator_of_keyword hk ?_
  obtain ⟨prev, ahead, index⟩ := c
  cases ahead with
  | nil => cases hc
  | cons m ms => exact hc

end Guarded

namespace Resembles

variable {c d : Cursor}

theorem kind_zero (h : c.Resembles d) : c.kind 0 = d.kind 0 := by
  simp only [kind, ← List.head?_eq_getElem?, h.head]

theorem keyword?_zero (h : c.Resembles d) : c.keyword? 0 = d.keyword? 0 := by
  simp only [keyword?, ← List.head?_eq_getElem?, h.head]

theorem afterBreak_zero (h : c.Resembles d) : c.afterBreak 0 = d.afterBreak 0 := by
  simp only [afterBreak, ← List.head?_eq_getElem?, h.head]

theorem atKind (h : c.Resembles d) (k : Kind) : c.atKind k = d.atKind k := by
  rw [Cursor.atKind, Cursor.atKind, h.kind_zero]

theorem atKeyword (h : c.Resembles d) (k : Keyword) : c.atKeyword k = d.atKeyword k := by
  rw [Cursor.atKeyword, Cursor.atKeyword, isKeyword, isKeyword, h.keyword?_zero]

theorem isAny_zero (h : c.Resembles d) (ks : List Keyword) : c.isAny 0 ks = d.isAny 0 ks := by
  rw [isAny, isAny, h.keyword?_zero]

/-- What stands behind the mark ahead is asked for only where no separator is ahead. -/
theorem isKeyword_one (h : c.Resembles d) (hc : c.atSeparator = false) (k : Keyword) :
    c.isKeyword 1 k = d.isKeyword 1 k := by
  rw [isKeyword, isKeyword, h.keyword?_one hc]

theorem isAny_one (h : c.Resembles d) (hc : c.atSeparator = false) (ks : List Keyword) :
    c.isAny 1 ks = d.isAny 1 ks := by
  rw [isAny, isAny, h.keyword?_one hc]

/-- A script that goes on here goes on there. -/
theorem ahead_ne_nil (h : c.Resembles d) (hc : c.ahead ≠ []) : d.ahead ≠ [] := by
  obtain ⟨m, ms, hm⟩ := List.exists_cons_of_ne_nil hc
  intro hnil
  have hhead := h.head
  rw [hm, hnil] at hhead
  cases hhead

theorem atEnd (h : c.Resembles d) : c.atEnd = d.atEnd := by
  have hhead := h.head
  unfold Cursor.atEnd
  cases hc : c.ahead <;> cases hd : d.ahead <;> simp_all

/-- Both batches end here, or none. -/
theorem atBatchEnd (h : c.Resembles d) : c.atBatchEnd = d.atBatchEnd := by
  rw [Cursor.atBatchEnd, Cursor.atBatchEnd, h.atEnd, h.atSeparator]

/-- `END` closes a block in both runs or in none; the word behind it may tell. -/
theorem atClosingEnd (h : c.Resembles d) (hc : c.atSeparator = false) :
    c.atClosingEnd = d.atClosingEnd := by
  rw [Cursor.atClosingEnd, Cursor.atClosingEnd, h.atKeyword, h.isKeyword_one hc]

/-- What ends a list of statements does so in both runs. -/
theorem closes (h : c.Resembles d) (hc : c.atSeparator = false) (k : Closer) :
    k.closes c = k.closes d := by
  cases k with
  | never => rfl
  | block => simp only [Closer.closes, closesBlock, h.atKeyword, h.isAny_one hc]
  | tryEnd => simp only [Closer.closes, h.atKeyword, h.isKeyword_one hc]
  | catchEnd => simp only [Closer.closes, h.atKeyword, h.isKeyword_one hc]

/-- A row of statements ends at both cursors or at neither. -/
theorem ends (h : c.Resembles d) (k : Closer) :
    (c.atBatchEnd || k.closes c) = (d.atBatchEnd || k.closes d) := by
  cases hc : c.atSeparator with
  | true =>
      have hd : d.atSeparator = true := by rw [← h.atSeparator, hc]
      simp [Cursor.atBatchEnd, hc, hd]
  | false => rw [h.atBatchEnd, h.closes hc]

/-- A body can begin in both runs or in none. -/
theorem admitsStatement (h : c.Resembles d) : c.admitsStatement = d.admitsStatement := by
  cases hc : c.atSeparator with
  | true =>
      have hd : d.atSeparator = true := by rw [← h.atSeparator, hc]
      simp [Cursor.admitsStatement, Cursor.atBatchEnd, hc, hd]
  | false =>
      simp only [Cursor.admitsStatement, h.atBatchEnd, h.atKind, h.atKeyword, h.atClosingEnd hc]

/-- A condition can begin in both runs or in none. -/
theorem admitsCondition (h : c.Resembles d) : c.admitsCondition = d.admitsCondition := by
  cases hc : c.atSeparator with
  | true =>
      have hd : d.atSeparator = true := by rw [← h.atSeparator, hc]
      simp [Cursor.admitsCondition, Cursor.admitsStatement, Cursor.atBatchEnd, hc, hd]
  | false => rw [Cursor.admitsCondition, Cursor.admitsCondition, h.admitsStatement,
      h.startsStatement hc]

/-- The same leaf is read. -/
theorem take_fst (h : c.Resembles d) : c.take.1 = d.take.1 := by
  have hhead := h.head
  unfold take
  cases hc : c.ahead <;> cases hd : d.ahead <;> simp_all

/-! ### What a simple statement asks -/

/-- A simple statement opens with the same clauses. -/
theorem opening (h : c.Resembles d) (hc : c.atSeparator = false) :
    Clauses.opening c = Clauses.opening d := by
  simp only [Clauses.opening, h.startsModule hc, h.keyword?_zero, h.isKeyword_one hc]

/-- A simple statement goes on over the next mark in both runs or in none. -/
theorem continues (h : c.Resembles d) (hc : c.atSeparator = false) (s : Clauses) :
    s.continues c = s.continues d := by
  simp only [Clauses.continues, h.prevIsAny, h.keyword?_zero, h.isKeyword_one hc, h.isAny_one hc]

/-- What a mark adds to the clauses depends on the mark alone. -/
theorem absorb (h : c.Resembles d) (s : Clauses) : s.absorb c = s.absorb d := by
  simp only [Clauses.absorb, h.prevIsAny, h.keyword?_zero]

theorem note (h : c.Resembles d) (s : Clauses) : s.note c = s.note d := by
  simp only [Clauses.note, h.keyword?_zero]

end Resembles

end Cursor

end SqlCaret
