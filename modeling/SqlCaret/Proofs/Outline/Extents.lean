import SqlCaret.Proofs.Outline.Parts
import SqlCaret.Proofs.Outline.Whole

/-!
# Outline — extents

How far a simple statement and a condition reach, told by the marks ahead and not by how they are
read.  What is open before a mark is counted from where the statement starts (`Cursor.parensOpen`,
`Cursor.casesOpen`); the account that is kept while reading is this count (`Nesting.Tracks`).

`Cursor.StatementExtent` says that the next marks make a statement: it holds nothing behind its end,
and it does not end before.  `Cursor.ConditionExtent` says what a condition does not hold.  A judge
takes marks one after the other, and what each of its verdicts says of the mark ahead carries over
to the whole run (`Cursor.taken_collect`), which gives both extents (`Outline.extent_simple`,
`Outline.extent_condition`).
-/

namespace SqlCaret

open SqlCaret.Tree

/-! ### What is open -/

namespace Mark

/-- How many parentheses are open behind the mark, if `n` are in front of it.  One that closes none
leaves none open. -/
def parensBehind (n : Nat) (m : Mark) : Nat :=
  match m.kind with
  | .leftParen => n + 1
  | .rightParen => n - 1
  | _ => n

/-- How many `CASE` are open behind the mark, if `n` are in front of it. -/
def casesBehind (n : Nat) (m : Mark) : Nat :=
  match m.keyword with
  | some .CASE => n + 1
  | some .END => n - 1
  | _ => n

end Mark

namespace Cursor

variable {c : Cursor} {j : Nat} {m : Mark}

/-- How many parentheses are open before the `j`-th mark ahead, of those that open from here on. -/
def parensOpen (c : Cursor) (j : Nat) : Nat := (c.ahead.take j).foldl Mark.parensBehind 0

/-- How many `CASE` are open before the `j`-th mark ahead, of those that open from here on. -/
def casesOpen (c : Cursor) (j : Nat) : Nat := (c.ahead.take j).foldl Mark.casesBehind 0

/-- Each mark changes the count of parentheses by what it is. -/
theorem parensOpen_succ (h : c.ahead[j]? = some m) :
    c.parensOpen (j + 1) = m.parensBehind (c.parensOpen j) := by
  simp [parensOpen, List.take_add_one, h]

theorem casesOpen_succ (h : c.ahead[j]? = some m) :
    c.casesOpen (j + 1) = m.casesBehind (c.casesOpen j) := by
  simp [casesOpen, List.take_add_one, h]

theorem Proper.skip (h : c.Proper) (j : Nat) : (c.skip j).Proper := by
  intro m hm
  rw [ahead_skip] at hm
  exact h m (List.mem_of_mem_drop hm)

/-- Only words spell keywords. -/
theorem Proper.kind_eq_word (h : c.Proper) {k : Keyword} (hk : c.atKeyword k = true) :
    c.kind 0 = .word := by
  obtain ⟨prev, ahead, index⟩ := c
  cases ahead with
  | nil => cases hk
  | cons m ms =>
      refine Classical.byContradiction fun hkind => ?_
      have hnone : m.keyword = none := h m List.mem_cons_self hkind
      simp [atKeyword, isKeyword, keyword?, hnone] at hk

/-- In front of another token than a word no keyword is ahead. -/
theorem Proper.atKeyword_of_atKind (h : c.Proper) {k : Kind} (hk : c.atKind k = true)
    (hne : k ≠ .word) (w : Keyword) : c.atKeyword w = false := by
  refine Bool.eq_false_iff.mpr fun hw => hne ?_
  rw [← h.kind_eq_word hw, eq_comm]
  exact beq_iff_eq.mp hk

/-- To pass marks is to skip as many. -/
theorem Passes.eq_skip {c' : Cursor} {ms : List Mark} (h : c.Passes ms c') :
    c' = c.skip ms.length := by
  induction ms generalizing c with
  | nil =>
      obtain ⟨hahead, hindex, hprev⟩ := h
      cases c
      cases c'
      simp_all
  | cons m ms ih =>
      obtain ⟨hahead, hindex, hprev⟩ := h
      have hadvance : c.advance = ⟨some m, ms ++ c'.ahead, c.index + 1⟩ := by
        simp only [advance, hahead, List.cons_append]
      refine ih (c := c.advance) ?_
      rw [hadvance]
      refine ⟨rfl, ?_, ?_⟩
      · rw [hindex, List.length_cons, Nat.add_assoc, Nat.add_comm 1]
      · rw [hprev, List.getLast?_cons]
        cases ms.getLast? <;> rfl

end Cursor

namespace Nesting

variable {c : Cursor} {m : Mark} {ms : List Mark}

/-- The account of parentheses takes a mark as the count does. -/
theorem length_parens_pass (n : Nesting) (h : c.ahead = m :: ms) :
    (n.pass c).parens.length = m.parensBehind n.parens.length := by
  have hkind : c.kind 0 = m.kind := by simp [Cursor.kind, h]
  rw [pass, hkind, Mark.parensBehind]
  split
  · rename_i hleft
    rw [hleft]
    rfl
  · rename_i hright
    rw [hright]
    split
    · rename_i hnil
      simp [hnil]
    · rename_i hcons
      simp [hcons]
  · rename_i hword
    rw [hword]
    split
    · rfl
    split
    · rfl
    · rfl
  · rename_i hleft hright _
    split
    · exact absurd ‹_› hleft
    · exact absurd ‹_› hright
    · rfl

theorem cases_pass (n : Nesting) (h : c.ahead = m :: ms) (hm : m.Proper) :
    (n.pass c).cases = m.casesBehind n.cases := by
  have hkind : c.kind 0 = m.kind := by simp [Cursor.kind, h]
  have hkeyword : ∀ k, c.atKeyword k = (m.keyword == some k) := fun k => by
    simp [Cursor.atKeyword, Cursor.isKeyword, Cursor.keyword?, h]
  have hnone : m.kind ≠ .word → m.casesBehind n.cases = n.cases := fun hne => by
    rw [Mark.casesBehind, hm hne]
  rw [pass, hkind]
  split
  · rename_i hkind
    exact (hnone (by rw [hkind]; decide)).symm
  · rename_i hkind
    rw [hnone (by rw [hkind]; decide)]
    split <;> rfl
  · rw [hkeyword, hkeyword, Mark.casesBehind]
    split
    · rename_i hcase
      rw [beq_iff_eq] at hcase
      rw [hcase]
    · rename_i hcase
      split
      · rename_i hend
        rw [beq_iff_eq] at hend
        rw [hend]
      · rename_i hend
        split
        · simp_all
        · simp_all
        · rfl
  · rename_i hword
    exact (hnone hword).symm

end Nesting

/-- The account is what is open before the `j`-th mark ahead. -/
structure Nesting.Tracks (n : Nesting) (c : Cursor) (j : Nat) : Prop where
  parens : n.parens.length = c.parensOpen j
  cases : n.cases = c.casesOpen j

namespace Nesting.Tracks

variable {n : Nesting} {c : Cursor} {j : Nat}

theorem zero (c : Cursor) : Tracks {} c 0 := ⟨rfl, rfl⟩

/-- The account says that no parenthesis is open just when none is. -/
theorem atTop_iff (h : n.Tracks c j) : n.atTop = true ↔ c.parensOpen j = 0 := by
  rw [atTop, List.isEmpty_iff_length_eq_zero, h.parens]

theorem outsideCase_iff (h : n.Tracks c j) : n.outsideCase = true ↔ c.casesOpen j = 0 := by
  rw [outsideCase, beq_iff_eq, h.cases]

/-- **The account stays the count**, one mark further on. -/
theorem pass (h : n.Tracks c j) (hc : c.Proper) (hj : j < c.ahead.length) :
    (n.pass (c.skip j)).Tracks c (j + 1) := by
  have hm : c.ahead[j]? = some c.ahead[j] := List.getElem?_eq_getElem hj
  have hahead : (c.skip j).ahead = c.ahead[j] :: c.ahead.drop (j + 1) := by
    rw [Cursor.ahead_skip, List.drop_eq_getElem_cons hj]
  constructor
  · rw [length_parens_pass n hahead, h.parens, Cursor.parensOpen_succ hm]
  · rw [cases_pass n hahead (hc _ (List.getElem_mem hj)), h.cases, Cursor.casesOpen_succ hm]

end Nesting.Tracks

/-! ### Runs of a judge -/

namespace Cursor

variable {σ : Type} {judge : σ → Cursor → Verdict σ} {I : Nat → σ → Prop} {c : Cursor}

theorem collect_nil (h : c.ahead = []) (s : σ) : c.collect judge s = ([], s, c) := by
  obtain ⟨prev, ahead, index⟩ := c
  obtain rfl : ahead = [] := h
  rfl

/-- A judge looks at the mark ahead, and its verdict says what is collected. -/
theorem collect_cons {m : Mark} {ms : List Mark} (h : c.ahead = m :: ms) (s : σ) :
    c.collect judge s =
      match judge s c with
      | .stop => ([], s, c)
      | .last => ([.leaf m], s, c.advance)
      | .go s' => (.leaf m :: (c.advance.collect judge s').1, (c.advance.collect judge s').2) := by
  obtain ⟨prev, ahead, index⟩ := c
  obtain rfl : ahead = m :: ms := h
  rfl

/-- The marks ahead from the `i`-th to before the `n`-th are what a judge takes whose states satisfy
`I` at each mark. -/
structure Taken (judge : σ → Cursor → Verdict σ) (I : Nat → σ → Prop) (c : Cursor) (i n : Nat) :
    Prop where
  le : i ≤ n
  /-- No mark is left, and behind the last that is taken there is no other. -/
  taken : ∀ j, i ≤ j → j < n → ∃ s, I j s ∧
    ((∃ s', judge s (c.skip j) = .go s') ∨ judge s (c.skip j) = .last ∧ j + 1 = n)
  /-- The run has a reason to stop. -/
  stopped : (c.skip n).ahead = [] ∨ (∃ s, I n s ∧ judge s (c.skip n) = .stop) ∨
    ∃ j s, i ≤ j ∧ j + 1 = n ∧ I j s ∧ judge s (c.skip j) = .last

/-- **A run of a judge**, if every step keeps `I`. -/
theorem taken_collect
    (hgo : ∀ {j s s'}, j < c.ahead.length → I j s → judge s (c.skip j) = .go s' → I (j + 1) s')
    {i : Nat} {s : σ} (h : I i s) :
    Taken judge I c i (i + (leavesOfList ((c.skip i).collect judge s).1).length) := by
  -- on the marks ahead, for each of them is looked at once
  induction hl : (c.skip i).ahead generalizing i s with
  | nil =>
      rw [collect_nil hl]
      exact ⟨Nat.le_refl _, fun j hij hj => absurd hj (Nat.not_lt.mpr hij), .inl hl⟩
  | cons m ms ih =>
      have hi : i < c.ahead.length := by
        rw [ahead_skip] at hl
        have hlength := congrArg List.length hl
        rw [List.length_drop, List.length_cons] at hlength
        omega
      rw [collect_cons hl]
      split
      · rename_i hstop
        exact ⟨Nat.le_refl _, fun j hij hj => absurd hj (Nat.not_lt.mpr hij),
          .inr (.inl ⟨s, h, hstop⟩)⟩
      · rename_i hlast
        refine ⟨Nat.le_succ i, fun j hij hj => ?_, .inr (.inr ⟨i, s, Nat.le_refl _, rfl, h, hlast⟩)⟩
        obtain rfl : j = i := Nat.le_antisymm (Nat.le_of_lt_succ hj) hij
        exact ⟨s, h, .inr ⟨hlast, rfl⟩⟩
      · rename_i s' hverdict
        have hadvance : (c.skip (i + 1)).ahead = ms := by
          rw [skip_succ, advance, hl]
        have htaken := ih (hgo hi h hverdict) hadvance
        rw [skip_succ] at htaken
        rw [leavesOfList_cons, leaves_leaf, List.singleton_append, List.length_cons,
          Nat.add_comm _ 1, ← Nat.add_assoc]
        refine ⟨Nat.le_of_succ_le htaken.le, fun j hij hj => ?_, ?_⟩
        · rcases Nat.lt_or_eq_of_le hij with hij | rfl
          · exact htaken.taken j hij hj
          · exact ⟨s, h, .inl ⟨s', hverdict⟩⟩
        · obtain hend | hstop | ⟨j, t, hij, hlast⟩ := htaken.stopped
          · exact .inl hend
          · exact .inr (.inl hstop)
          · exact .inr (.inr ⟨j, t, Nat.le_of_succ_le hij, hlast⟩)

/-- The marks from the first on that a judge takes behind one that is taken in any case. -/
theorem taken_behind_first {s : σ} (hne : c.ahead ≠ [])
    (hgo : ∀ {j s s'}, j < c.ahead.length → I j s → judge s (c.skip j) = .go s' → I (j + 1) s')
    (h : I 1 s) :
    Taken judge I c 1 (leavesOfList (c.take.1 ++ (c.take.2.collect judge s).1)).length := by
  obtain ⟨m, ms, hm⟩ := List.exists_cons_of_ne_nil hne
  have htaken := taken_collect hgo h
  have hfirst : (leavesOfList c.take.1).length = 1 := by rw [take, hm]; rfl
  rw [leavesOfList_append, List.length_append, hfirst, take_snd]
  exact htaken

end Cursor

/-! ### Simple statements -/

namespace Cursor

/-- The next `n` marks are as much as a simple statement takes. -/
structure StatementExtent (c : Cursor) (n : Nat) : Prop where
  /-- A semicolon outside of parentheses is the last mark. -/
  semicolon : ∀ j, j < n → c.parensOpen j = 0 → (c.skip j).atKind .semicolon = true → j + 1 = n
  /-- Nothing that ends what is around stands outside of parentheses and of every `CASE`. -/
  closer : ∀ j, 0 < j → j < n → c.parensOpen j = 0 → c.casesOpen j = 0 →
    (c.skip j).atKeyword .ELSE = false ∧ (c.skip j).atClosingEnd = false
  /-- It ends with a semicolon, or something stands behind it that cannot be part of it. -/
  maximal : (∃ j, j + 1 = n ∧ c.parensOpen j = 0 ∧ (c.skip j).atKind .semicolon = true) ∨
    (c.skip n).atBatchEnd = true ∨ (c.skip n).atKeyword .ELSE = true ∨
      (c.skip n).atClosingEnd = true ∨ (c.skip n).startsStatement = true

/-- The next `n` marks can all be part of a condition. -/
structure ConditionExtent (c : Cursor) (n : Nat) : Prop where
  /-- Outside of parentheses there is no semicolon and no statement begins. -/
  top : ∀ j, j < n → c.parensOpen j = 0 →
    (c.skip j).atKind .semicolon = false ∧ (c.skip j).startsStatement = false
  /-- Outside of every `CASE` as well there is no `ELSE` and no `END`. -/
  outside : ∀ j, j < n → c.parensOpen j = 0 → c.casesOpen j = 0 →
    (c.skip j).atKeyword .ELSE = false ∧ (c.skip j).atKeyword .END = false

end Cursor

namespace Clauses

variable {s : Clauses} {c : Cursor}

/-- Only the opening of a module takes the rest of the batch. -/
theorem reach_opening : (opening c).reach = .batch ↔ c.startsModule = true := by
  unfold opening
  split
  · rename_i h
    exact ⟨fun _ => h, fun _ => rfl⟩
  · rename_i h
    refine iff_of_false ?_ h
    split <;> simp

/-- What a mark leaves open does not change how far the statement may reach. -/
theorem reach_note : (s.note c).reach = s.reach := by
  unfold note
  split
  · rfl
  · split <;> rfl
  · rfl

/-- No mark behind the opening makes a statement take the rest of the batch. -/
theorem reach_absorb (h : s.reach ≠ .batch) : (s.absorb c).reach ≠ .batch := by
  have hacted : (if s.alter then { s with acted := true } else s).reach ≠ .batch := by
    split <;> exact h
  unfold absorb
  simp only
  split <;> first | exact hacted | simp

end Clauses

namespace Outline

variable {s s' : Clauses × Nesting} {n n' : Nesting} {c : Cursor}

/-- A statement stops at the end of the batch; unless it takes the rest of the batch, it also stops
outside of parentheses at what cannot be part of it. -/
theorem of_judgeSimple_stop (h : judgeSimple s c = .stop) :
    c.atSeparator = true ∨ s.1.reach ≠ .batch ∧
      (c.atKeyword .ELSE = true ∨ c.atClosingEnd = true ∨ c.startsStatement = true) := by
  simp only [judgeSimple] at h
  split at h
  · exact .inl ‹_›
  split at h
  · rename_i htop
    refine .inr ⟨htop.1, ?_⟩
    split at h
    · cases h
    split at h
    · rename_i hcloser
      simp only [Bool.and_eq_true, Bool.or_eq_true] at hcloser
      exact hcloser.2.imp_right .inl
    split at h
    · rename_i hstart
      exact .inr (.inr hstart.2)
    · cases h
  · cases h

/-- The last mark of a simple statement is a semicolon with nothing open in front of it. -/
theorem of_judgeSimple_last (h : judgeSimple s c = .last) :
    s.1.reach ≠ .batch ∧ s.2.atTop = true ∧ c.atKind .semicolon = true := by
  simp only [judgeSimple] at h
  split at h
  · cases h
  split at h
  · rename_i htop
    split at h
    · exact ⟨htop.1, htop.2, ‹_›⟩
    · repeat' split at h
      all_goals cases h
  · cases h

/-- A mark that is taken before others does not change how far the statement reaches, and unless it
takes the rest of the batch, nothing that ends it is taken. -/
theorem of_judgeSimple_go (h : judgeSimple s c = .go s') :
    (s'.1.reach = .batch ↔ s.1.reach = .batch) ∧
      (s.1.reach ≠ .batch → s.2.atTop = true → c.atKind .semicolon = false ∧
        (s.2.outsideCase = true → c.atKeyword .ELSE = false ∧ c.atClosingEnd = false)) := by
  simp only [judgeSimple] at h
  split at h
  · cases h
  split at h
  -- nothing is open, so the judge has asked what may end the statement
  · rename_i htop
    split at h
    · cases h
    rename_i hsemicolon
    split at h
    · cases h
    rename_i hcloser
    have hends : s.2.outsideCase = true → c.atKeyword .ELSE = false ∧ c.atClosingEnd = false := by
      intro hcase
      simpa [hcase] using hcloser
    refine ⟨?_, fun _ _ => ⟨Bool.eq_false_iff.mpr hsemicolon, hends⟩⟩
    refine iff_of_false ?_ htop.1
    split at h
    · split at h
      · cases h
        rw [Clauses.reach_note]
        exact Clauses.reach_absorb htop.1
      · cases h
    · cases h
      rw [Clauses.reach_note]
      exact htop.1
  · rename_i htop
    cases h
    exact ⟨Iff.rfl, fun hreach hnesting => absurd ⟨hreach, hnesting⟩ htop⟩

/-- What is known of a state before the `j`-th mark of a statement. -/
structure SimpleState (c : Cursor) (j : Nat) (s : Clauses × Nesting) : Prop where
  tracks : s.2.Tracks c j
  reach : s.1.reach = .batch ↔ c.startsModule = true

/-- What is known behind the first mark of a statement. -/
theorem SimpleState.opening (hc : c.Proper) (hne : c.ahead ≠ []) :
    SimpleState c 1 (Clauses.opening c, ({} : Nesting).pass c) where
  tracks := (Nesting.Tracks.zero c).pass hc (List.length_pos_iff.mpr hne)
  reach := Clauses.reach_opening

/-- What is known in front of a mark is known behind it, if the statement goes on. -/
theorem SimpleState.go (hc : c.Proper) {j : Nat} (hj : j < c.ahead.length)
    (h : SimpleState c j s) (hgo : judgeSimple s (c.skip j) = .go s') :
    SimpleState c (j + 1) s' where
  tracks := by
    rw [nesting_of_judgeSimple_go hgo]
    exact h.tracks.pass hc hj
  reach := (of_judgeSimple_go hgo).1.trans h.reach

/-- The definition of a module goes up to the end of the batch. -/
theorem atBatchEnd_of_taken {m k : Nat} (h : Cursor.Taken judgeSimple (SimpleState c) c m k)
    (hmodule : c.startsModule = true) : (c.skip k).atBatchEnd = true := by
  rw [Cursor.atBatchEnd, Bool.or_eq_true]
  obtain hend | ⟨t, ht, hstop⟩ | ⟨j, t, -, -, ht, hlast⟩ := h.stopped
  · exact .inl (by rw [Cursor.atEnd, hend]; rfl)
  · exact .inr ((of_judgeSimple_stop hstop).resolve_right fun hnot =>
      hnot.1 (ht.reach.mpr hmodule))
  · exact absurd (ht.reach.mpr hmodule) (of_judgeSimple_last hlast).1

/-- Another statement takes its extent. -/
theorem statementExtent_of_taken {k : Nat} (hc : c.Proper)
    (h : Cursor.Taken judgeSimple (SimpleState c) c 1 k) (hmodule : c.startsModule = false)
    (hsemicolon : c.atKind .semicolon = false) : c.StatementExtent k := by
  have hreach : ∀ {j t}, SimpleState c j t → t.1.reach ≠ .batch := fun ht hbatch =>
    Bool.eq_false_iff.mp hmodule (ht.reach.mp hbatch)
  refine ⟨fun j hj hparens hat => ?_, fun j hpos hj hparens hcases => ?_, ?_⟩
  · have hpos : 0 < j := Nat.pos_of_ne_zero fun hzero => by
      rw [hzero, Cursor.skip_zero, hsemicolon] at hat
      cases hat
    obtain ⟨t, ht, ⟨t', hgo⟩ | ⟨-, hlast⟩⟩ := h.taken j hpos hj
    · rw [((of_judgeSimple_go hgo).2 (hreach ht) (ht.tracks.atTop_iff.mpr hparens)).1] at hat
      cases hat
    · exact hlast
  · obtain ⟨t, ht, ⟨t', hgo⟩ | ⟨hlast, -⟩⟩ := h.taken j hpos hj
    · exact ((of_judgeSimple_go hgo).2 (hreach ht) (ht.tracks.atTop_iff.mpr hparens)).2
        (ht.tracks.outsideCase_iff.mpr hcases)
    · have hkind := (of_judgeSimple_last hlast).2.2
      have hword := (hc.skip j).atKeyword_of_atKind hkind (by decide)
      exact ⟨hword .ELSE, by rw [Cursor.atClosingEnd, hword, Bool.false_and]⟩
  · obtain hend | ⟨t, ht, hstop⟩ | ⟨j, t, -, hj, ht, hlast⟩ := h.stopped
    · exact .inr (.inl (by rw [Cursor.atBatchEnd, Cursor.atEnd, hend]; rfl))
    · refine .inr ((of_judgeSimple_stop hstop).imp (fun hsep => ?_) (·.2))
      rw [Cursor.atBatchEnd, hsep, Bool.or_true]
    · obtain ⟨-, htop, hkind⟩ := of_judgeSimple_last hlast
      exact .inl ⟨j, hj, ht.tracks.atTop_iff.mp htop, hkind⟩

/-- **How far a simple statement reaches**: what it takes is its extent, and the definition of a
module takes everything up to the end of the batch. -/
theorem extent_simple (hc : c.Proper) (hne : c.ahead ≠ [])
    (hsemicolon : c.atKind .semicolon = false) :
    ∃ k, 0 < k ∧ (leaves (simple c).value).length = k ∧
      (c.startsModule = true → (c.skip k).atBatchEnd = true) ∧
      (c.startsModule = false → c.StatementExtent k) := by
  have htaken := Cursor.taken_behind_first hne (fun hj => SimpleState.go hc hj)
    (SimpleState.opening hc hne)
  exact ⟨_, htaken.le, by rw [simple, leaves_node], atBatchEnd_of_taken htaken,
    fun hmodule => statementExtent_of_taken hc htaken hmodule hsemicolon⟩

/-! ### Conditions -/

/-- A condition holds no semicolon, no start of a statement, and no `ELSE` or `END` outside `CASE`.
-/
theorem of_judgeCondition_go (h : judgeCondition n c = .go n') (htop : n.atTop = true) :
    c.atKind .semicolon = false ∧ c.startsStatement = false ∧
      (n.outsideCase = true → c.atKeyword .ELSE = false ∧ c.atKeyword .END = false) := by
  simp only [judgeCondition] at h
  split at h
  · cases h
  split at h
  · cases h
  rename_i hbegins
  split at h
  · cases h
  rename_i hcloser
  simp only [htop, Bool.true_and, Bool.not_eq_true, Bool.or_eq_false_iff] at hbegins
  refine ⟨hbegins.1, hbegins.2, fun hcase => ?_⟩
  simpa [htop, hcase] using hcloser

/-- A condition does not begin with what it may not hold; in front of it stands no name. -/
theorem of_admitsCondition (hc : c.Proper) (h : c.admitsCondition = true)
    (hname : c.afterNameIntro = false) :
    c.atKind .semicolon = false ∧ c.startsStatement = false ∧
      c.atKeyword .ELSE = false ∧ c.atKeyword .END = false := by
  simp only [Cursor.admitsCondition, Cursor.admitsStatement, Bool.and_eq_true,
    Bool.not_eq_true'] at h
  obtain ⟨⟨⟨⟨⟨-, hsemicolon⟩, -⟩, helse⟩, hclosing⟩, hstart⟩ := h
  refine ⟨hsemicolon, hstart, helse, Bool.eq_false_iff.mpr fun hend => ?_⟩
  -- an `END` that closes nothing is `END CONVERSATION`, which begins a statement
  have hword := hc.kind_eq_word hend
  have hkeyword := keyword?_of_isKeyword hend
  rw [Cursor.atClosingEnd, hend, Bool.true_and, Bool.not_eq_false'] at hclosing
  rw [Cursor.startsStatement, hword, hname, hkeyword] at hstart
  rw [show c.isKeyword 1 .CONVERSATION = false from hstart] at hclosing
  cases hclosing

/-- The marks that a condition takes can all be part of it. -/
theorem conditionExtent_of_taken {k : Nat} (hc : c.Proper)
    (h : Cursor.Taken judgeCondition (fun j n => n.Tracks c j) c 1 k)
    (hadmits : c.admitsCondition = true) (hname : c.afterNameIntro = false) :
    c.ConditionExtent k := by
  have hmark : ∀ j, j < k → c.parensOpen j = 0 →
      (c.skip j).atKind .semicolon = false ∧ (c.skip j).startsStatement = false ∧
        (c.casesOpen j = 0 → (c.skip j).atKeyword .ELSE = false ∧
          (c.skip j).atKeyword .END = false) := by
    intro j hj hparens
    rcases Nat.eq_zero_or_pos j with rfl | hpos
    · obtain ⟨hsemicolon, hstart, hcloser⟩ := of_admitsCondition hc hadmits hname
      exact ⟨hsemicolon, hstart, fun _ => hcloser⟩
    · obtain ⟨n, htracks, ⟨n', hgo⟩ | ⟨hlast, -⟩⟩ := h.taken j hpos hj
      · obtain ⟨hsemicolon, hstart, hcloser⟩ :=
          of_judgeCondition_go hgo (htracks.atTop_iff.mpr hparens)
        exact ⟨hsemicolon, hstart, fun hcases => hcloser (htracks.outsideCase_iff.mpr hcases)⟩
      · exact absurd hlast (judgeCondition_ne_last _ _)
  exact ⟨fun j hj hparens => ⟨(hmark j hj hparens).1, (hmark j hj hparens).2.1⟩,
    fun j hj hparens => (hmark j hj hparens).2.2⟩

/-- **What a condition does not hold.** -/
theorem extent_condition (hc : c.Proper) (owner : Owner) (hadmits : c.admitsCondition = true)
    (hname : c.afterNameIntro = false) :
    ∃ k, 0 < k ∧ (leavesOfList (condition owner c).value).length = k ∧ c.ConditionExtent k := by
  have hne := ahead_ne_nil_of_admitsCondition hadmits
  have hgo : ∀ {j : Nat} {n n' : Nesting}, j < c.ahead.length → n.Tracks c j →
      judgeCondition n (c.skip j) = .go n' → n'.Tracks c (j + 1) := fun hj htracks hgo => by
    rw [nesting_of_judgeCondition_go hgo]
    exact htracks.pass hc hj
  have htaken : Cursor.Taken judgeCondition (fun j n => n.Tracks c j) c 1 _ :=
    Cursor.taken_behind_first hne hgo
      ((Nesting.Tracks.zero c).pass hc (List.length_pos_iff.mpr hne))
  refine ⟨_, htaken.le, ?_, conditionExtent_of_taken hc htaken hadmits hname⟩
  rw [condition, if_pos hadmits, leavesOfList_cons, leaves_node, leavesOfList_nil, List.append_nil]
  rfl

end Outline

end SqlCaret
