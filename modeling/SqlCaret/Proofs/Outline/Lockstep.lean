import SqlCaret.Proofs.Outline.Depth
import SqlCaret.Proofs.Outline.Resembles

/-!
# Outline — lockstep

Two runs of the grammar over different scripts, side by side.  `c.Resembles d` says that the
grammar gets the same answers at both cursors to all that it asks; in front of a separator line it
only asks about the mark ahead.  A relation between cursors is a `Lockstep` when related cursors
resemble each other and stay related one mark further on, unless they stand in front of a separator
line.

**Runs in lockstep read the same** (`Lockstep.agree`): the same outlines, and the same problems,
each at a place that both runs come by.  No rule passes a separator line, so the rests are related
again.  This needs that no separator is one of the words that the grammar passes on the strength of
the word before them (`Cursor.Guarded`).
-/

namespace SqlCaret

open SqlCaret.Tree

/-- The same problem, `n` marks further on. -/
def Problem.later (n : Nat) (p : Problem) : Problem := ⟨p.fault, p.index + n⟩

/-- Related cursors resemble each other and stay related while no separator line is passed.  The
second run is `n` marks behind. -/
structure Lockstep (n : Nat) (R : Cursor → Cursor → Prop) : Prop where
  resembles : ∀ {c d}, R c d → c.Resembles d
  guarded : ∀ {c d}, R c d → c.Guarded
  index : ∀ {c d}, R c d → c.index = d.index + n
  take : ∀ {c d}, R c d → c.atSeparator = false → R c.take.2 d.take.2

/-- The problems of one run are those of the other, each at a place that both runs come by. -/
structure Told (n : Nat) (R : Cursor → Cursor → Prop) (ps qs : List Problem) : Prop where
  eq : ps = qs.map (.later n)
  placed : ∀ p ∈ ps, ∃ c d, R c d ∧ p.index = c.index

/-- Two readings of the same, after which the runs are related again. -/
structure Agree {α : Type} (n : Nat) (R : Cursor → Cursor → Prop) (r s : Reading α) : Prop where
  value : r.value = s.value
  told : Told n R r.problems s.problems
  rest : R r.rest s.rest

section
variable {n : Nat} {R : Cursor → Cursor → Prop} {c d : Cursor}

namespace Told

theorem nil : Told n R [] [] := ⟨rfl, by simp⟩

theorem append {ps qs ps' qs' : List Problem} (h : Told n R ps qs) (h' : Told n R ps' qs') :
    Told n R (ps ++ ps') (qs ++ qs') where
  eq := by rw [h.eq, h'.eq, List.map_append]
  placed := fun p hp => (List.mem_append.mp hp).elim (h.placed p) (h'.placed p)

/-- A problem that both runs meet where they are related. -/
theorem one (L : Lockstep n R) (h : R c d) (fault : SyntaxFault) :
    Told n R [⟨fault, c.index⟩] [⟨fault, d.index⟩] where
  eq := by rw [L.index h]; rfl
  placed := by
    intro p hp
    rw [List.mem_singleton.mp hp]
    exact ⟨c, d, h, rfl⟩

end Told

/-! ### Nesting -/

/-- The accounts of two runs in lockstep. -/
structure Nesting.Agree (n : Nat) (R : Cursor → Cursor → Prop) (a b : Nesting) : Prop where
  parens : a.parens = b.parens.map (· + n)
  cases : a.cases = b.cases
  told : Told n R a.problems b.problems
  placed : ∀ i ∈ a.parens, ∃ c d, R c d ∧ i = c.index

namespace Nesting.Agree

variable {a b : Nesting}

theorem empty : Nesting.Agree n R {} {} := ⟨rfl, rfl, .nil, by simp⟩

/-- Whether something is open is the same in both runs. -/
theorem atTop (h : Nesting.Agree n R a b) : a.atTop = b.atTop := by
  simp [Nesting.atTop, h.parens]

theorem outsideCase (h : Nesting.Agree n R a b) : a.outsideCase = b.outsideCase := by
  rw [Nesting.outsideCase, Nesting.outsideCase, h.cases]

/-- Both accounts take the next mark in the same way. -/
theorem pass (h : Nesting.Agree n R a b) (L : Lockstep n R) (hc : R c d) :
    Nesting.Agree n R (a.pass c) (b.pass d) := by
  obtain ⟨hparens, hcases, htold, hplaced⟩ := h
  have hlook := L.resembles hc
  unfold Nesting.pass
  rw [hlook.kind_zero]
  -- a parenthesis that opens, one that closes, a word, and any other mark
  split
  · refine ⟨?_, hcases, htold, ?_⟩
    · rw [hparens, L.index hc, List.map_cons]
    · intro i hi
      rcases List.mem_cons.mp hi with rfl | hi
      · exact ⟨c, d, hc, rfl⟩
      · exact hplaced i hi
  · cases hb : b.parens with
    | nil =>
        have ha : a.parens = [] := by rw [hparens, hb]; rfl
        simp only [ha]
        exact ⟨rfl, hcases, (Told.one L hc .parenAlone).append htold, by simp⟩
    | cons i is =>
        have ha : a.parens = (i + n) :: is.map (· + n) := by rw [hparens, hb]; rfl
        simp only [ha]
        refine ⟨rfl, hcases, htold, fun j hj => hplaced j ?_⟩
        rw [ha]
        exact List.mem_cons_of_mem _ hj
  · rw [hlook.atKeyword, hlook.atKeyword]
    split
    · exact ⟨hparens, by rw [hcases], htold, hplaced⟩
    split
    · exact ⟨hparens, by rw [hcases], htold, hplaced⟩
    · exact ⟨hparens, hcases, htold, hplaced⟩
  · exact ⟨hparens, hcases, htold, hplaced⟩

/-- What is left open at the end is a problem of both runs. -/
theorem finish (h : Nesting.Agree n R a b) : Told n R a.finish b.finish where
  eq := by
    rw [Nesting.finish, Nesting.finish, h.told.eq, h.parens]
    simp [Problem.later]
  placed := by
    intro p hp
    rw [Nesting.finish, List.mem_append, List.mem_reverse, List.mem_map] at hp
    rcases hp with hp | ⟨i, hi, rfl⟩
    · exact h.told.placed p hp
    · exact h.placed i (List.mem_reverse.mp hi)

end Nesting.Agree

/-! ### Marks taken one after the other -/

/-- Two judges do the same, and go on in related states. -/
inductive Verdict.Agree {σ : Type} (T : σ → σ → Prop) : Verdict σ → Verdict σ → Prop where
  | stop : Agree T .stop .stop
  | last : Agree T .last .last
  | go {s t : σ} (h : T s t) : Agree T (.go s) (.go t)

/-- Both runs collect the same marks, if their judges agree wherever no separator is ahead. -/
theorem Lockstep.collect {σ : Type} (L : Lockstep n R) {judge : σ → Cursor → Verdict σ}
    {T : σ → σ → Prop}
    (hstop : ∀ {s c}, c.atSeparator = true → judge s c = .stop)
    (hjudge : ∀ {s t c d}, R c d → T s t → c.atSeparator = false →
      Verdict.Agree T (judge s c) (judge t d))
    {s t : σ} (h : R c d) (hT : T s t) :
    (c.collect judge s).1 = (d.collect judge t).1 ∧
      T (c.collect judge s).2.1 (d.collect judge t).2.1 ∧
      R (c.collect judge s).2.2 (d.collect judge t).2.2 := by
  obtain ⟨prev, ahead, index⟩ := c
  obtain ⟨prev', ahead', index'⟩ := d
  simp only [Cursor.collect]
  -- on the marks ahead of the first run; that the second has the same is known from mark to mark
  induction ahead generalizing s t prev index prev' ahead' index' with
  | nil =>
      have hhead := (L.resembles h).head
      cases ahead' with
      | nil => exact ⟨rfl, hT, h⟩
      | cons => cases hhead
  | cons m ms ih =>
      have hlook := L.resembles h
      have hhead := hlook.head
      cases ahead' with
      | nil => cases hhead
      | cons m' ms' =>
          obtain rfl : m = m' := Option.some.inj hhead
          simp only [SqlCaret.collect]
          cases hsep : (Cursor.mk prev (m :: ms) index).atSeparator with
          | true =>
              rw [hstop hsep, hstop (hlook.atSeparator.symm.trans hsep)]
              exact ⟨rfl, hT, h⟩
          | false =>
              have hnext := L.take h hsep
              have hverdict := hjudge h hT hsep
              generalize judge s ⟨prev, m :: ms, index⟩ = v at hverdict
              generalize judge t ⟨prev', m :: ms', index'⟩ = w at hverdict
              cases hverdict with
              | stop => exact ⟨rfl, hT, h⟩
              | last => exact ⟨rfl, hT, hnext⟩
              | go hT' =>
                  obtain ⟨hvalue, hstate, hrest⟩ := ih hT' _ _ _ _ _ hnext
                  exact ⟨congrArg (Tree.leaf m :: ·) hvalue, hstate, hrest⟩

/-! ### Simple statements and conditions -/

namespace Lockstep

/-- The two accounts agree, and so does what the two statements can still take. -/
def SimpleAgree (n : Nat) (R : Cursor → Cursor → Prop) (s t : Clauses × Nesting) : Prop :=
  s.1 = t.1 ∧ Nesting.Agree n R s.2 t.2

/-- Both runs go on with a simple statement, or neither. -/
theorem judgeSimple (L : Lockstep n R) {s t : Clauses × Nesting} (h : R c d)
    (hT : SimpleAgree n R s t) (hc : c.atSeparator = false) :
    Verdict.Agree (SimpleAgree n R) (Outline.judgeSimple s c) (Outline.judgeSimple t d) := by
  obtain ⟨clauses, a⟩ := s
  obtain ⟨_, b⟩ := t
  obtain ⟨rfl, hnesting⟩ := hT
  have hlook := L.resembles h
  have hd : d.atSeparator = false := hlook.atSeparator.symm.trans hc
  have hpass := hnesting.pass L h
  simp only [Outline.judgeSimple, hc, hd, Bool.false_eq_true, if_false, hlook.atKind,
    hlook.atKeyword, hlook.atClosingEnd hc, hlook.startsStatement hc, hlook.continues hc,
    hlook.absorb, hlook.note, hnesting.atTop, hnesting.outsideCase]
  split
  · split
    · exact .last
    split
    · exact .stop
    split
    · split
      · exact .go ⟨rfl, hpass⟩
      · exact .stop
    · exact .go ⟨rfl, hpass⟩
  · exact .go ⟨rfl, hpass⟩

/-- Both runs read the same simple statement. -/
theorem simple (L : Lockstep n R) (h : R c d) (hc : c.atSeparator = false) :
    Agree n R (Outline.simple c) (Outline.simple d) := by
  have hlook := L.resembles h
  have hstart : SimpleAgree n R (Clauses.opening c, ({} : Nesting).pass c)
      (Clauses.opening d, ({} : Nesting).pass d) :=
    ⟨hlook.opening hc, Nesting.Agree.empty.pass L h⟩
  have hstop : ∀ {s : Clauses × Nesting} {c : Cursor}, c.atSeparator = true →
      Outline.judgeSimple s c = .stop := fun hsep => by simp [Outline.judgeSimple, hsep]
  obtain ⟨hvalue, hstate, hrest⟩ := L.collect hstop L.judgeSimple (L.take h hc) hstart
  refine ⟨?_, hstate.2.finish, hrest⟩
  simp only [Outline.simple, hlook.take_fst, hvalue]

theorem judgeCondition (L : Lockstep n R) {a b : Nesting} (h : R c d)
    (hT : Nesting.Agree n R a b) (hc : c.atSeparator = false) :
    Verdict.Agree (Nesting.Agree n R) (Outline.judgeCondition a c)
      (Outline.judgeCondition b d) := by
  have hlook := L.resembles h
  have hd : d.atSeparator = false := hlook.atSeparator.symm.trans hc
  simp only [Outline.judgeCondition, hc, hd, Bool.false_eq_true, if_false, hlook.atKind,
    hlook.atKeyword, hlook.startsStatement hc, hT.atTop, hT.outsideCase]
  split
  · exact .stop
  split
  · exact .stop
  · exact .go (hT.pass L h)

/-- Both runs read the same condition, or both lack one. -/
theorem condition (L : Lockstep n R) (owner : Owner) (h : R c d) :
    Agree n R (Outline.condition owner c) (Outline.condition owner d) := by
  have hlook := L.resembles h
  simp only [Outline.condition, ← hlook.admitsCondition]
  split
  · rename_i hadmits
    have hc : c.atSeparator = false := by
      simp only [Cursor.admitsCondition, Cursor.admitsStatement, Cursor.atBatchEnd,
        Bool.and_eq_true, Bool.not_eq_true', Bool.or_eq_false_iff] at hadmits
      exact hadmits.1.1.1.1.1.2
    have hstop : ∀ {s : Nesting} {c : Cursor}, c.atSeparator = true →
        Outline.judgeCondition s c = .stop := fun hsep => by simp [Outline.judgeCondition, hsep]
    obtain ⟨hvalue, hstate, hrest⟩ :=
      L.collect hstop L.judgeCondition (L.take h hc) (Nesting.Agree.empty.pass L h)
    refine ⟨?_, hstate.finish, hrest⟩
    simp only [hlook.take_fst, hvalue]
  · exact ⟨rfl, .one L h _, h⟩

/-! ### Compound statements -/

/-- A mark that both runs take on the same condition, if it is no separator. -/
theorem takeIf (L : Lockstep n R) (h : R c d) {p q : Bool} (hpq : p = q)
    (hp : p = true → c.atSeparator = false) :
    (c.takeIf p).1 = (d.takeIf q).1 ∧ R (c.takeIf p).2 (d.takeIf q).2 := by
  subst hpq
  unfold Cursor.takeIf
  split
  · rename_i h'
    exact ⟨(L.resembles h).take_fst, L.take h (hp h')⟩
  · exact ⟨rfl, h⟩

/-- A semicolon behind a statement is in both runs or in none. -/
theorem takeIf_semicolon (L : Lockstep n R) (h : R c d) :
    (c.takeIf (c.atKind .semicolon)).1 = (d.takeIf (d.atKind .semicolon)).1 ∧
      R (c.takeIf (c.atKind .semicolon)).2 (d.takeIf (d.atKind .semicolon)).2 :=
  L.takeIf h ((L.resembles h).atKind _)
    ((L.guarded h).atSeparator_of_kind (k := .semicolon) (by decide))


/-! ### Sections and blocks -/

/-- Rows agree that have fewer marks ahead. -/
def RowsAgree (n : Nat) (R : Cursor → Cursor → Prop) (l : Nat) : Prop :=
  ∀ k {c d : Cursor}, c.ahead.length < l → R c d →
    Agree n R (Outline.row k c) (Outline.row k d)

/-- Statements agree that have fewer marks ahead. -/
def ReadsAgree (n : Nat) (R : Cursor → Cursor → Prop) (l : Nat) : Prop :=
  ∀ {c d : Cursor}, c.ahead.length < l → c.ahead ≠ [] → c.atSeparator = false → R c d →
    Agree n R (Outline.read c) (Outline.read d)

variable {l : Nat}

/-- Both runs read the same block. -/
theorem block (L : Lockstep n R) (hi : RowsAgree n R l) (h : R c d)
    (hc : c.atSeparator = false) (hne : c.ahead ≠ []) (hl : c.ahead.length ≤ l) :
    Agree n R (Outline.block Outline.row c) (Outline.block Outline.row d) := by
  have hlen := Outline.length_take_lt hne
  have hinner := hi .block (by omega) (L.take h hc)
  have hlook := L.resembles hinner.rest
  simp only [Outline.block, ← hlook.atBatchEnd, ← (L.resembles h).take_fst, ← hinner.value]
  split
  · exact ⟨rfl, hinner.told.append (.one L h _), hinner.rest⟩
  · rename_i hend
    have hsep : (Outline.row .block c.take.2).rest.atSeparator = false := by
      simp only [Cursor.atBatchEnd, Bool.or_eq_true, not_or, Bool.not_eq_true] at hend
      exact hend.2
    obtain ⟨hsemi, hrest⟩ := L.takeIf_semicolon (L.take hinner.rest hsep)
    refine ⟨?_, hinner.told, hrest⟩
    simp only [hlook.take_fst, hsemi]

/-- The word that a section is named for. -/
inductive Names : Keyword → Closer → Prop where
  | TRY : Names .TRY .tryEnd
  | CATCH : Names .CATCH .catchEnd

/-- The word of a section is one that the separator may not be. -/
theorem Names.mem_unguarded {w : Keyword} {k : Closer} (h : Names w k) :
    w ∈ Keyword.unguarded := by
  cases h <;> decide

/-- What closes a section has the word of the section second. -/
theorem Names.isKeyword_one {w : Keyword} {k : Closer} (h : Names w k)
    (hc : k.closes c = true) : c.isKeyword 1 w = true := by
  cases h <;> exact ((Bool.and_eq_true _ _).mp hc).2

/-- Both runs read the same section; its second words are passed unasked, and so may be no
separators. -/
theorem sectionOf (L : Lockstep n R) (hi : RowsAgree n R l) {w : Keyword} {closer : Closer}
    (hw : Names w closer) (h : R c d) (hc : c.atSeparator = false)
    (hone : c.isKeyword 1 w = true) (hne : c.ahead ≠ []) (hl : c.ahead.length ≤ l) :
    Agree n R (Outline.sectionOf Outline.row closer c)
      (Outline.sectionOf Outline.row closer d) := by
  have h₁ := L.take h hc
  have h₂ := L.take h₁ ((L.guarded h₁).atSeparator_take hw.mem_unguarded hone)
  have hlen := Outline.length_take_lt hne
  have hlen₂ := c.take.2.passes_take.length_le
  have hinner := hi closer (by omega) h₂
  have hlook := L.resembles hinner.rest
  simp only [Outline.sectionOf, ← hlook.atBatchEnd, ← (L.resembles h).take_fst,
    ← (L.resembles h₁).take_fst, ← hinner.value]
  split
  · exact ⟨rfl, hinner.told, hinner.rest⟩
  · rename_i hend
    -- the row did not stop at the end of the batch, so both words of the section's end are ahead
    have hcloses := Outline.row_stops closer c.take.2.take.2
    rw [Bool.or_eq_true] at hcloses
    have hsep : (Outline.row closer c.take.2.take.2).rest.atSeparator = false := by
      simp only [Cursor.atBatchEnd, Bool.or_eq_true, not_or, Bool.not_eq_true] at hend
      exact hend.2
    have h₃ := L.take hinner.rest hsep
    have h₄ := L.take h₃ ((L.guarded h₃).atSeparator_take hw.mem_unguarded
      (hw.isKeyword_one (hcloses.resolve_left hend)))
    obtain ⟨hsemi, hrest⟩ := L.takeIf_semicolon h₄
    refine ⟨?_, hinner.told, hrest⟩
    simp only [hlook.take_fst, (L.resembles h₃).take_fst, hsemi]

/-- Both runs find the same sections. -/
theorem tryCatch (L : Lockstep n R) (hi : RowsAgree n R l) (h : R c d)
    (hc : c.atSeparator = false) (hone : c.isKeyword 1 .TRY = true) (hne : c.ahead ≠ [])
    (hl : c.ahead.length ≤ l) :
    Agree n R (Outline.tryCatch Outline.row c) (Outline.tryCatch Outline.row d) := by
  have ht := L.sectionOf hi .TRY h hc hone hne hl
  have hlook := L.resembles ht.rest
  simp only [Outline.tryCatch, ← ht.value, ← hlook.atKeyword]
  split
  · cases hbegin : (Outline.sectionOf Outline.row .tryEnd c).rest.atKeyword .BEGIN with
    | false =>
        simp only [Bool.false_and, Bool.false_eq_true, if_false]
        exact ⟨rfl, ht.told.append (.one L ht.rest _), ht.rest⟩
    | true =>
        -- `BEGIN` is no separator, so the word behind it is the same in both runs
        have hsep := (L.guarded ht.rest).atSeparator_of_keyword (k := .BEGIN) (by decide) hbegin
        rw [← hlook.isKeyword_one hsep]
        simp only [Bool.true_and]
        split
        · rename_i hcatch
          have hlen := (Outline.consumes_sectionOf Outline.consumes_row .tryEnd c).length_le
          have hk := L.sectionOf hi .CATCH ht.rest hsep hcatch
            (Outline.ahead_ne_nil_of_atKeyword hbegin) (by omega)
          refine ⟨by rw [hk.value], ?_, hk.rest⟩
          refine (ht.told.append hk.told).append ?_
          rw [← hk.value]
          split
          · exact .nil
          · exact .one L ht.rest _
        · exact ⟨rfl, ht.told.append (.one L ht.rest _), ht.rest⟩
  · exact ⟨rfl, ht.told.append (.one L h _), ht.rest⟩

theorem strayCatch (L : Lockstep n R) (hi : RowsAgree n R l) (h : R c d)
    (hc : c.atSeparator = false) (hone : c.isKeyword 1 .CATCH = true) (hne : c.ahead ≠ [])
    (hl : c.ahead.length ≤ l) :
    Agree n R (Outline.strayCatch Outline.row c) (Outline.strayCatch Outline.row d) := by
  have hk := L.sectionOf hi .CATCH h hc hone hne hl
  simp only [Outline.strayCatch, ← hk.value]
  exact ⟨rfl, (Told.one L h .catchAlone).append hk.told, hk.rest⟩

/-! ### Branches -/

/-- Both runs read the same body, or both lack it. -/
theorem body (L : Lockstep n R) (hs : ReadsAgree n R l) (owner : Owner) (h : R c d)
    (hl : c.ahead.length < l) :
    Agree n R (Outline.body Outline.read owner c) (Outline.body Outline.read owner d) := by
  simp only [Outline.body, ← (L.resembles h).admitsStatement]
  split
  · rename_i hadmits
    simp only [Cursor.admitsStatement, Bool.and_eq_true, Bool.not_eq_true'] at hadmits
    have hend := hadmits.1.1.1.1
    have hread := hs hl (Outline.ahead_ne_nil_of_not_atBatchEnd (by simp [hend]))
      (Bool.or_eq_false_iff.mp hend).2 h
    exact ⟨by rw [hread.value], hread.told, hread.rest⟩
  · exact ⟨rfl, .one L h _, h⟩

/-- Both runs have an `ELSE`, or neither has one. -/
theorem elseClause (L : Lockstep n R) (hs : ReadsAgree n R l) (h : R c d)
    (hl : c.ahead.length < l) :
    Agree n R (Outline.elseClause Outline.read c) (Outline.elseClause Outline.read d) := by
  have hlook := L.resembles h
  simp only [Outline.elseClause, ← hlook.atKeyword]
  split
  · rename_i helse
    have hsep := (L.guarded h).atSeparator_of_keyword (k := .ELSE) (by decide) helse
    have hlen := c.passes_take.length_le
    have hbody := L.body hs .elseClause (L.take h hsep) (by omega)
    exact ⟨by rw [hlook.take_fst, hbody.value], hbody.told, hbody.rest⟩
  · exact ⟨rfl, .nil, h⟩

/-- Both runs read the same `IF`. -/
theorem ifStatement (L : Lockstep n R) (hs : ReadsAgree n R l) (h : R c d)
    (hc : c.atSeparator = false) (hne : c.ahead ≠ []) (hl : c.ahead.length ≤ l) :
    Agree n R (Outline.ifStatement Outline.read c) (Outline.ifStatement Outline.read d) := by
  have hlen := Outline.length_take_lt hne
  have hlen₁ := (Outline.consumes_condition .ifClause c.take.2).length_le
  have hlen₂ := (Outline.consumes_body Outline.consumes_read .ifClause
    (Outline.condition .ifClause c.take.2).rest).length_le
  have hcond := L.condition .ifClause (L.take h hc)
  have hyes := L.body hs .ifClause hcond.rest (by omega)
  have hno := L.elseClause hs hyes.rest (by omega)
  refine ⟨?_, (hcond.told.append hyes.told).append hno.told, hno.rest⟩
  simp only [Outline.ifStatement, (L.resembles h).take_fst, hcond.value, hyes.value, hno.value]

/-- Both runs read the same `WHILE`. -/
theorem whileStatement (L : Lockstep n R) (hs : ReadsAgree n R l) (h : R c d)
    (hc : c.atSeparator = false) (hne : c.ahead ≠ []) (hl : c.ahead.length ≤ l) :
    Agree n R (Outline.whileStatement Outline.read c) (Outline.whileStatement Outline.read d) := by
  have hlen := Outline.length_take_lt hne
  have hlen₁ := (Outline.consumes_condition .whileClause c.take.2).length_le
  have hcond := L.condition .whileClause (L.take h hc)
  have hbody := L.body hs .whileClause hcond.rest (by omega)
  refine ⟨?_, hcond.told.append hbody.told, hbody.rest⟩
  simp only [Outline.whileStatement, (L.resembles h).take_fst, hcond.value, hbody.value]

/-! ### Statements and rows -/

/-- The first word makes the same of both statements. -/
theorem statementBy (L : Lockstep n R) (hs : ReadsAgree n R l) (hi : RowsAgree n R l) (h : R c d)
    (hc : c.atSeparator = false) (hne : c.ahead ≠ []) (hl : c.ahead.length ≤ l) :
    Agree n R (Outline.statementBy Outline.read Outline.row c)
      (Outline.statementBy Outline.read Outline.row d) := by
  have hlook := L.resembles h
  unfold Outline.statementBy
  rw [← hlook.keyword?_zero, ← hlook.isKeyword_one hc, ← hlook.isKeyword_one hc,
    ← hlook.isAny_one hc]
  split
  · split
    · exact L.tryCatch hi h hc ‹_› hne hl
    split
    · exact L.strayCatch hi h hc ‹_› hne hl
    split
    · exact L.simple h hc
    · exact L.block hi h hc hne hl
  · exact L.ifStatement hs h hc hne hl
  · exact L.whileStatement hs h hc hne hl
  · exact L.simple h hc

/-- Both runs read the same item. -/
theorem itemBy (L : Lockstep n R) (h : R c d) (hc : c.atSeparator = false)
    (hs : Agree n R (Outline.read c) (Outline.read d)) :
    Agree n R (Outline.itemBy Outline.read c) (Outline.itemBy Outline.read d) := by
  have hlook := L.resembles h
  have htake := L.take h hc
  simp only [Outline.itemBy, ← hlook.atKind, ← hlook.atKeyword, ← hlook.atClosingEnd hc,
    ← hlook.take_fst]
  split
  · exact ⟨rfl, .nil, htake⟩
  split
  · obtain ⟨hword, hrest⟩ := L.takeIf htake ((L.resembles htake).isAny_zero [.TRY, .CATCH])
      ((L.guarded htake).atSeparator_of_isAny (by decide))
    exact ⟨by rw [hword], .one L h _, hrest⟩
  split
  · exact ⟨rfl, .one L h _, htake⟩
  split
  · exact ⟨rfl, .one L h _, htake⟩
  · exact ⟨by rw [hs.value], hs.told, hs.rest⟩

/-- **Runs in lockstep read the same**, each statement in front of which no separator line stands
and each row. -/
theorem agree (L : Lockstep n R) :
    (∀ c : Cursor, c.ahead ≠ [] → ∀ d, R c d → c.atSeparator = false →
      Agree n R (Outline.read c) (Outline.read d)) ∧
    ∀ k (c : Cursor), ∀ d, R c d → Agree n R (Outline.row k c) (Outline.row k d) := by
  refine Outline.read_row_induction ?_ ?_
  · intro c hne hs hi d h hc
    have hne' : d.ahead ≠ [] := (L.resembles h).ahead_ne_nil hne
    rw [Outline.read_eq hne, Outline.read_eq hne']
    exact L.statementBy (fun hl hne hc h => hs _ hl hne _ h hc)
      (fun k _ _ hl h => hi k _ hl _ h) h hc
      hne (Nat.le_refl _)
  · intro k c hs hi d h
    have hends := (L.resembles h).ends k
    rcases Outline.row_cases k c with ⟨hc, hrow⟩ | ⟨hc, hne, hlt, hrow⟩
    · rcases Outline.row_cases k d with ⟨-, hrow'⟩ | ⟨hd, -⟩
      · rw [hrow, hrow']
        exact ⟨rfl, .nil, h⟩
      · rw [← hends, hc] at hd
        cases hd
    · rcases Outline.row_cases k d with ⟨hd, -⟩ | ⟨-, -, -, hrow'⟩
      · rw [← hends, hc] at hd
        cases hd
      · have hsep : c.atSeparator = false := by
          simp only [Cursor.atBatchEnd, Bool.or_eq_false_iff] at hc
          exact hc.1.2
        have hitem := L.itemBy h hsep (hs hne d h hsep)
        have hothers := hi k _ hlt _ hitem.rest
        rw [hrow, hrow']
        exact ⟨by rw [hitem.value, hothers.value], hitem.told.append hothers.told, hothers.rest⟩

/-- **Batches in lockstep** are the same. -/
theorem batch (L : Lockstep n R) (h : R c d) :
    Agree n R (Outline.batch c) (Outline.batch d) := by
  have hrow := L.agree.2 .never c d h
  exact ⟨congrArg (Tree.node .batch) hrow.value, hrow.told, hrow.rest⟩

/-- Separators are the same in lockstep, if the runs are related behind their first words. -/
theorem separator (L : Lockstep n R) (h : R c d) (hnext : R c.take.2 d.take.2) :
    (Outline.separator c).value = (Outline.separator d).value ∧
      R (Outline.separator c).rest (Outline.separator d).rest := by
  have hlook := L.resembles hnext
  obtain ⟨hcount, hrest⟩ := L.takeIf hnext
    (by rw [hlook.atKind, hlook.afterBreak_zero] :
      (c.take.2.atKind .number && !c.take.2.afterBreak 0) =
        (d.take.2.atKind .number && !d.take.2.afterBreak 0))
    (fun hp => (L.guarded hnext).atSeparator_of_kind (k := .number) (by decide)
      (Bool.and_eq_true_iff.mp hp).1)
  refine ⟨?_, hrest⟩
  simp only [Outline.separator, (L.resembles h).take_fst, hcount]

end Lockstep

end

end SqlCaret
