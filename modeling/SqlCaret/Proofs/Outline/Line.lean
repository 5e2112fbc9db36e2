import SqlCaret.Proofs.Outline.Separators
import SqlCaret.Proofs.Printed.Batches

/-!
# Outline — both sides of a separator line

What the grammar makes of the marks on one side of a separator line does not depend on the marks on
the other side.

* In front of the line (`parts_beside`) this has one exception.  Whether `WITH` begins common table
  expressions is asked without regard to separator lines, so that a `WITH` right in front of one
  takes the separator for a name and looks at what stands behind it (`Cursor.opensCte`).
* Behind the line there is none (`parts_behind`).  The mark just passed is then the separator, but
  no question is answered differently for that.

Both are runs in lockstep.
-/

namespace SqlCaret

open SqlCaret.Tree
open SqlCaret.Printed (goMark)

namespace Cursor

/-- Whether `(` or `AS (` is ahead, which after `WITH` and a name makes a common table
expression. -/
def opensCte (c : Cursor) : Bool :=
  c.kind 0 == .leftParen || (c.isKeyword 0 .AS && c.kind 1 == .leftParen)

theorem startsModule_eq (c : Cursor) :
    c.startsModule = (c.isAny 0 [.CREATE, .ALTER] &&
      if c.isKeyword 1 .OR && c.isKeyword 2 .ALTER then c.isAny 3 Keyword.modules
      else c.isAny 1 Keyword.modules) := by
  unfold startsModule
  split <;> rfl

/-- Where a line ends in front of `r`, a separator line stands in front of it. -/
theorem atSeparator_line {r : List Mark} (hr : ∀ m ∈ r.head?, m.afterBreak = true)
    (prev : Option Mark) (index : Nat) : (Cursor.mk prev (goMark :: r) index).atSeparator = true := by
  cases r with
  | nil => rfl
  | cons m ms =>
      have hm : m.afterBreak = true := hr m rfl
      simp [atSeparator, spellsSeparator, opensLine, afterBreak, goMark, hm]

end Cursor

namespace Outline

theorem guarded_goMark : goMark.Guarded := fun _ => ⟨rfl, by decide⟩

/-! ### In front of a separator line -/

/-- Two cursors with the same marks up to a separator line, which has `last` marks before it, and
with `r` and `r'` behind it. -/
inductive Beside (r r' : List Mark) (last : Nat) : Cursor → Cursor → Prop where
  | mk {prev : Option Mark} {ms : List Mark} {index : Nat} (hguarded : ∀ m ∈ ms, m.Guarded)
      (hcte : ∀ m ∈ ms.getLast?, m.keyword = some .WITH →
        (Cursor.ofMarks r).opensCte = (Cursor.ofMarks r').opensCte)
      (hlast : index + ms.length = last) :
      Beside r r' last ⟨prev, ms ++ goMark :: r, index⟩ ⟨prev, ms ++ goMark :: r', index⟩

namespace Beside

variable {r r' : List Mark} {last : Nat} {c d : Cursor}

theorem index_le (h : Beside r r' last c d) : c.index ≤ last := by
  obtain ⟨-, -, hlast⟩ := h
  exact hlast ▸ Nat.le_add_right _ _

/-- The separator line is right ahead, or the next mark is the same. -/
theorem line_or_take (h : Beside r r' last c d) :
    (∃ prev, c = ⟨prev, goMark :: r, last⟩ ∧ d = ⟨prev, goMark :: r', last⟩) ∨
      Beside r r' last c.take.2 d.take.2 := by
  obtain ⟨hguarded, hcte, hlast⟩ := h
  rename_i prev ms index
  cases ms with
  | nil =>
      obtain rfl : index = last := hlast
      exact .inl ⟨prev, rfl, rfl⟩
  | cons m ms =>
      refine .inr (.mk (fun x hx => hguarded x (List.mem_cons_of_mem _ hx)) (fun x hx => hcte x ?_)
        ?_)
      · rw [List.getLast?_cons, Option.mem_def.mp hx]
        rfl
      · rw [← hlast, List.length_cons, Nat.add_assoc, Nat.add_comm 1]

theorem ahead_ne_nil (h : Beside r r' last c d) : c.ahead ≠ [] := by
  obtain ⟨-, -, -⟩ := h
  simp

section
variable (r r') (prev : Option Mark) {m : Mark} {ms : List Mark} (index : Nat)

/-- `WITH` is the one word for which the grammar looks past the separator line. -/
theorem startsCte_eq
    (hcte : ms = [] → m.keyword = some .WITH →
      (Cursor.ofMarks r).opensCte = (Cursor.ofMarks r').opensCte) :
    (Cursor.mk prev (m :: ms ++ goMark :: r) index).startsCte =
      (Cursor.mk prev (m :: ms ++ goMark :: r') index).startsCte := by
  match ms with
  | [] =>
      -- the name is the separator, and what stands behind it decides
      have hopens : ∀ r : List Mark, (Cursor.mk prev ([m] ++ goMark :: r) index).startsCte =
          (m.keyword == some .WITH && (Cursor.ofMarks r).opensCte) := fun r => rfl
      rw [hopens, hopens]
      by_cases hm : m.keyword = some .WITH
      · rw [hcte rfl hm]
      · rw [beq_false_of_ne hm, Bool.false_and, Bool.false_and]
  | [a] =>
      simp [Cursor.startsCte, Cursor.atKeyword, Cursor.isKeyword, Cursor.keyword?, Cursor.kind,
        goMark]
  | [a, b] =>
      simp [Cursor.startsCte, Cursor.atKeyword, Cursor.isKeyword, Cursor.keyword?, Cursor.kind,
        goMark]
  | a :: b :: e :: ms => rfl

theorem startsModule_eq :
    (Cursor.mk prev (m :: ms ++ goMark :: r) index).startsModule =
      (Cursor.mk prev (m :: ms ++ goMark :: r') index).startsModule := by
  rw [Cursor.startsModule_eq, Cursor.startsModule_eq]
  match ms with
  | [] => rfl
  | [a] => simp [Cursor.isAny, Cursor.isKeyword, Cursor.keyword?, goMark]
  | [a, b] => rfl
  | a :: b :: e :: ms => rfl

theorem atSeparator_eq :
    (Cursor.mk prev (m :: ms ++ goMark :: r) index).atSeparator =
      (Cursor.mk prev (m :: ms ++ goMark :: r') index).atSeparator := by
  match ms with
  | [] => rfl
  | [a] => rfl
  | a :: b :: ms => rfl

theorem keyword?_one_eq :
    (Cursor.mk prev (m :: ms ++ goMark :: r) index).keyword? 1 =
      (Cursor.mk prev (m :: ms ++ goMark :: r') index).keyword? 1 := by
  cases ms <;> rfl

theorem kind_one_eq :
    (Cursor.mk prev (m :: ms ++ goMark :: r) index).kind 1 =
      (Cursor.mk prev (m :: ms ++ goMark :: r') index).kind 1 := by
  cases ms <;> rfl

end

variable (hr : ∀ m ∈ r.head?, m.afterBreak = true) (hr' : ∀ m ∈ r'.head?, m.afterBreak = true)
include hr hr'

theorem resembles (h : Beside r r' last c d) : c.Resembles d := by
  obtain ⟨-, hcte, -⟩ := h
  rename_i prev ms index
  cases ms with
  | nil =>
      -- no rule asks more in front of a separator line than whether it is one
      have hsep := Cursor.atSeparator_line hr prev index
      have hsep' := Cursor.atSeparator_line hr' prev index
      have hask : ∀ {P : Prop},
          (Cursor.mk prev ([] ++ goMark :: r) index).atSeparator = false → P := by
        intro P h
        exact absurd (hsep.symm.trans h) (by decide)
      exact ⟨rfl, hsep.trans hsep'.symm, fun _ => rfl, hask, hask, hask⟩
  | cons m ms =>
      have hcte : ms = [] → m.keyword = some .WITH →
          (Cursor.ofMarks r).opensCte = (Cursor.ofMarks r').opensCte := by
        rintro rfl
        exact hcte m rfl
      have hkeyword : (Cursor.mk prev (m :: ms ++ goMark :: r) index).keyword? 1 =
          (Cursor.mk prev (m :: ms ++ goMark :: r') index).keyword? 1 :=
        keyword?_one_eq r r' prev index
      refine ⟨rfl, atSeparator_eq r r' prev index, fun _ => rfl, fun _ => hkeyword, fun _ => ?_,
        fun _ => startsModule_eq r r' prev index⟩
      simp only [Cursor.startsStatement, startsCte_eq r r' prev index hcte,
        kind_one_eq r r' prev index, Cursor.isAny, Cursor.isKeyword, hkeyword]
      rfl

/-- **Runs in front of the same separator line** are in lockstep. -/
theorem lockstep : Lockstep 0 (Beside r r' last) where
  resembles := resembles hr hr'
  guarded := by
    intro c d h
    obtain ⟨hguarded, -, -⟩ := h
    rename_i prev ms index
    refine .of_head fun m hm => ?_
    cases ms with
    | nil =>
        cases hm
        exact guarded_goMark
    | cons x ms =>
        cases hm
        exact hguarded _ List.mem_cons_self
  index := by
    rintro c d ⟨-, -, -⟩
    rfl
  take := by
    intro c d h hsep
    refine h.line_or_take.resolve_left ?_
    rintro ⟨prev, rfl, -⟩
    rw [Cursor.atSeparator_line hr] at hsep
    cases hsep

end Beside

/-- The parts ahead of `c` are the trees `front`, with the problems `ps`, up to a separator line
that has `last` marks before it, and then the parts of what stands behind the line. -/
structure PartsTo (last : Nat) (r : List Mark) (c : Cursor) (front : List Outline)
    (ps : List Problem) : Prop where
  value : (parts c).value =
    front ++ .node .separator [.leaf goMark] :: (parts ⟨some goMark, r, last + 1⟩).value
  problems : (parts c).problems = ps ++ (parts ⟨some goMark, r, last + 1⟩).problems
  placed : ∀ p ∈ ps, p.index ≤ last

namespace PartsTo

variable {last : Nat} {r : List Mark} {c : Cursor} {front : List Outline} {ps : List Problem}

/-- The line ends the first batch. -/
theorem line (hr : ∀ m ∈ r.head?, m.afterBreak = true) {prev : Option Mark}
    (h : (batch c).rest = ⟨prev, goMark :: r, last⟩)
    (hplaced : ∀ p ∈ (batch c).problems, p.index ≤ last) :
    PartsTo last r c [(batch c).value] (batch c).problems := by
  have hsep : (batch c).rest.atSeparator = true := by rw [h, Cursor.atSeparator_line hr]
  -- no repeat count stands behind the separator
  have hbreak : (Cursor.mk (some goMark) r (last + 1)).afterBreak 0 = true := by
    cases r with
    | nil => rfl
    | cons m ms => exact hr m rfl
  have hline : separator (batch c).rest =
      ⟨.node .separator [.leaf goMark], [], ⟨some goMark, r, last + 1⟩⟩ := by
    simp only [h, separator, Cursor.take, Cursor.takeIf, hbreak, Bool.not_true, Bool.and_false,
      Bool.false_eq_true, if_false, List.append_nil]
  refine ⟨?_, ?_, hplaced⟩
  · rw [parts_line hsep, hline]
    rfl
  · rw [parts_line hsep, hline]

/-- Another batch stands in front. -/
theorem cons (hsep : (batch c).rest.atSeparator = true)
    (hplaced : ∀ p ∈ (batch c).problems, p.index ≤ last)
    (h : PartsTo last r (separator (batch c).rest).rest front ps) :
    PartsTo last r c ((batch c).value :: (separator (batch c).rest).value :: front)
      ((batch c).problems ++ ps) where
  value := by rw [parts_line hsep, h.value, List.cons_append, List.cons_append]
  problems := by rw [parts_line hsep, h.problems, List.append_assoc]
  placed := fun p hp => (List.mem_append.mp hp).elim (hplaced p) (h.placed p)

end PartsTo

/-- **What stands behind a separator line does not show in front of it.** -/
theorem parts_beside {r r' : List Mark} (hr : ∀ m ∈ r.head?, m.afterBreak = true)
    (hr' : ∀ m ∈ r'.head?, m.afterBreak = true) {last : Nat} :
    ∀ c d, Beside r r' last c d → ∃ front ps, PartsTo last r c front ps ∧
      PartsTo last r' d front ps := by
  refine parts_induction (fun c hsep d h => ?_) (fun c hsep ih d h => ?_)
  · have hbatch := (Beside.lockstep hr hr').batch h
    -- the line is still ahead, so this is not the last batch
    rcases batch_stops c with hline | hend
    · rw [hsep] at hline
      cases hline
    · exact absurd hend hbatch.rest.ahead_ne_nil
  · have L : Lockstep 0 (Beside r r' last) := Beside.lockstep hr hr'
    have hbatch := L.batch h
    have hproblems : (batch c).problems = (batch d).problems := by
      rw [hbatch.told.eq]
      exact List.map_id _
    have hplaced : ∀ p ∈ (batch c).problems, p.index ≤ last := by
      intro p hp
      obtain ⟨c', d', h', hindex⟩ := hbatch.told.placed p hp
      exact hindex ▸ h'.index_le
    have hplaced' := hplaced
    rw [hproblems] at hplaced'
    -- the separator line that ends the batch is the one that the two runs share, or one before it
    rcases hbatch.rest.line_or_take with ⟨prev, hc, hd⟩ | hnext
    · refine ⟨_, _, .line hr hc hplaced, ?_⟩
      rw [hbatch.value, hproblems]
      exact .line hr' hd hplaced'
    · obtain ⟨hvalue, hrest⟩ := L.separator hbatch.rest hnext
      obtain ⟨front, ps, hfront, hfront'⟩ := ih _ hrest
      have hsep' : (batch d).rest.atSeparator = true :=
        (L.resembles hbatch.rest).atSeparator.symm.trans hsep
      refine ⟨_, _, .cons hsep hplaced hfront, ?_⟩
      rw [hbatch.value, hproblems, hvalue]
      exact .cons hsep' hplaced' hfront'

/-! ### Behind a separator line -/

/-- Two cursors with the same marks ahead, the first `n` marks further on.  The marks before them
may differ, in no way that the grammar asks about. -/
structure Behind (n : Nat) (c d : Cursor) : Prop where
  ahead : c.ahead = d.ahead
  index : c.index = d.index + n
  prevIsAny : ∀ ks, c.prevIsAny ks = d.prevIsAny ks
  afterNameIntro : c.afterNameIntro = d.afterNameIntro
  guarded : ∀ m ∈ c.ahead, m.Guarded

namespace Behind

variable {n : Nat} {c d : Cursor}

/-- Right behind a separator line, and at the start of a script. -/
theorem line {r : List Mark} (h : ∀ m ∈ r, m.Guarded) (n : Nat) :
    Behind n ⟨some goMark, r, n⟩ (.ofMarks r) :=
  ⟨rfl, (Nat.zero_add n).symm, fun _ => rfl, rfl, h⟩

theorem resembles (h : Behind n c d) : c.Resembles d := by
  obtain ⟨prev, ahead, index⟩ := c
  obtain ⟨prev', _, index'⟩ := d
  obtain ⟨rfl, -, hprev, hname, -⟩ := h
  refine ⟨rfl, rfl, hprev, fun _ => rfl, fun _ => ?_, fun _ => rfl⟩
  rw [Cursor.startsStatement, Cursor.startsStatement, hname]
  rfl

theorem take (h : Behind n c d) : Behind n c.take.2 d.take.2 := by
  obtain ⟨prev, ahead, index⟩ := c
  obtain ⟨prev', _, index'⟩ := d
  cases ahead with
  | nil =>
      obtain ⟨rfl, hindex, hprev, hname, hguarded⟩ := h
      exact ⟨rfl, hindex, hprev, hname, hguarded⟩
  | cons m ms =>
      -- once a mark is passed, it is the same mark on both sides
      obtain ⟨rfl, hindex, -, -, hguarded⟩ := h
      refine ⟨rfl, ?_, fun _ => rfl, rfl, fun x hx => hguarded x (List.mem_cons_of_mem _ hx)⟩
      simp only [Cursor.take] at hindex ⊢
      omega

/-- **Runs behind separator lines** are in lockstep. -/
theorem lockstep : Lockstep n (Behind n) where
  resembles := resembles
  guarded := fun h => .of_ahead h.guarded
  index := index
  take := fun h _ => h.take

end Behind

/-- **What stands in front of a separator line does not show behind it.** -/
theorem parts_behind {n : Nat} : ∀ c d, Behind n c d → (parts c).value = (parts d).value ∧
    (parts c).problems = (parts d).problems.map (.later n) := by
  refine parts_induction (fun c hsep d h => ?_) (fun c hsep ih d h => ?_)
  · have hbatch := Behind.lockstep.batch h
    have hsep' := (Behind.lockstep.resembles hbatch.rest).atSeparator.symm.trans hsep
    rw [parts_last hsep, parts_last hsep', hbatch.value]
    exact ⟨rfl, hbatch.told.eq⟩
  · have hbatch := Behind.lockstep.batch h
    have hsep' := (Behind.lockstep.resembles hbatch.rest).atSeparator.symm.trans hsep
    obtain ⟨hvalue, hrest⟩ := Behind.lockstep.separator hbatch.rest hbatch.rest.take
    obtain ⟨hparts, hproblems⟩ := ih _ hrest
    rw [parts_line hsep, parts_line hsep', hbatch.value, hvalue, hparts, hproblems,
      hbatch.told.eq]
    exact ⟨rfl, List.map_append.symm⟩

/-! ### Batches on both sides -/

/-- **Separator lines on both sides** are counted apart. -/
theorem lineCount_append (ms : List Mark) {r : List Mark}
    (hr : ∀ m ∈ r.head?, m.afterBreak = true) :
    lineCount (ms ++ goMark :: r) = lineCount (ms ++ [goMark]) + lineCount r := by
  induction ms with
  | nil =>
      have hline := Cursor.atSeparator_line hr none 0
      rw [List.nil_append, List.nil_append, lineCount, Cursor.ofMarks, if_pos hline]
      rfl
  | cons m ms ih =>
      have hsame : (Cursor.mk none (m :: (ms ++ goMark :: r)) 0).atSeparator =
          (Cursor.mk none (m :: (ms ++ goMark :: [])) 0).atSeparator :=
        Beside.atSeparator_eq r [] none 0
      rw [List.cons_append, List.cons_append, lineCount, lineCount, ih, Cursor.ofMarks,
        Cursor.ofMarks, hsame, Nat.add_assoc]

end Outline

end SqlCaret
