import SqlCaret.Proofs.Outline.Form
import SqlCaret.Proofs.Outline.Lockstep

/-!
# Outline — parts

A script falls into its parts, batches and the separators between them.  `parts` reads them
without a count (`batches_eq_parts`), and what holds of the parts of every script is proved from
the last batch backwards (`parts_induction`).

`c.skip i` stands `i` marks further on.  No batch passes a separator line (`exists_skip_batch`),
whatever is open in it, and a separator only passes its own (`exists_skip_separator`).
-/

namespace SqlCaret

open SqlCaret.Tree

namespace Cursor

/-- Past the next `n` marks, as far as there are any. -/
def skip : Nat → Cursor → Cursor
  | 0, c => c
  | n + 1, c => skip n c.advance

@[simp] theorem skip_zero (c : Cursor) : skip 0 c = c := rfl

theorem skip_succ (n : Nat) (c : Cursor) : skip (n + 1) c = (skip n c).advance := by
  induction n generalizing c with
  | zero => rfl
  | succ n ih => exact ih c.advance

theorem skip_add (m n : Nat) (c : Cursor) : skip (m + n) c = skip n (skip m c) := by
  induction n with
  | zero => rfl
  | succ n ih => rw [← Nat.add_assoc, skip_succ, skip_succ, ih]

theorem take_snd (c : Cursor) : c.take.2 = c.advance := by
  unfold take advance
  split <;> simp_all

theorem ahead_skip (n : Nat) (c : Cursor) : (skip n c).ahead = c.ahead.drop n := by
  induction n generalizing c with
  | zero => rfl
  | succ n ih =>
      rw [skip, ih, advance]
      split
      · rename_i h
        rw [h, List.drop_succ_cons]
      · rename_i h
        simp [h]

end Cursor

namespace Outline

/-! ### Without a count -/

/-- The batches ahead and the separators between them. -/
def parts : Rule (List Outline) := fun c => batches (c.ahead.length + 1) c

theorem length_separator_lt {c : Cursor} (h : c.ahead ≠ []) :
    (separator c).rest.ahead.length < c.ahead.length := by
  have htake := length_take_lt h
  have hcount := (c.take.2.passes_takeIf (c.take.2.atKind .number &&
    !c.take.2.afterBreak 0)).length_le
  simp only [separator]
  omega

/-- Behind a separator line less is ahead. -/
theorem length_line_lt {c : Cursor} (h : (batch c).rest.atSeparator = true) :
    (separator (batch c).rest).rest.ahead.length < c.ahead.length :=
  Nat.lt_of_lt_of_le (length_separator_lt (ahead_ne_nil_of_atSeparator h))
    (consumes_batch c).length_le

/-- A count that is greater than the number of marks ahead does not show. -/
theorem batches_eq_parts {count : Nat} {c : Cursor} (h : c.ahead.length < count) :
    batches count c = parts c := by
  induction hl : c.ahead.length using Nat.strongRecOn generalizing c count with
  | ind l ih =>
      subst hl
      obtain ⟨n, rfl⟩ := Nat.exists_eq_add_one.mpr (Nat.zero_lt_of_lt h)
      simp only [parts, batches]
      split
      · rename_i hsep
        have hlt := length_line_lt hsep
        rw [ih _ hlt (by omega) rfl, ih _ hlt hlt rfl]
      · rfl

section
variable {c : Cursor}

theorem parts_last (h : (batch c).rest.atSeparator = false) :
    parts c = ⟨[(batch c).value], (batch c).problems, (batch c).rest⟩ := by
  simp only [parts, batches, h, Bool.false_eq_true, if_false]

theorem parts_line (h : (batch c).rest.atSeparator = true) :
    parts c =
      ⟨(batch c).value :: (separator (batch c).rest).value ::
          (parts (separator (batch c).rest).rest).value,
        (batch c).problems ++ (parts (separator (batch c).rest).rest).problems,
        (parts (separator (batch c).rest).rest).rest⟩ := by
  have hothers := batches_eq_parts (length_line_lt h)
  have hproblems : (separator (batch c).rest).problems = [] := rfl
  rw [parts, batches]
  simp only [h, if_true, hothers, hproblems, List.append_nil]

end

/-- What holds of a script whose first batch is its last, and of a script if it holds of what
comes behind its first separator, holds of every script. -/
theorem parts_induction {P : Cursor → Prop}
    (last : ∀ c, (batch c).rest.atSeparator = false → P c)
    (line : ∀ c, (batch c).rest.atSeparator = true → P (separator (batch c).rest).rest → P c)
    (c : Cursor) : P c := by
  induction hl : c.ahead.length using Nat.strongRecOn generalizing c with
  | ind l ih =>
      subst hl
      cases hsep : (batch c).rest.atSeparator with
      | false => exact last c hsep
      | true => exact line c hsep (ih _ (length_line_lt hsep) _ rfl)

/-! ### Separator lines -/

/-- `c'` stands `n` marks behind `c`, and no separator line starts at any of them from the `m`-th
on. -/
structure Clear (m n : Nat) (c c' : Cursor) : Prop where
  eq : c' = c.skip n
  index : c'.index = c.index + n
  length : c.ahead.length = n + c'.ahead.length
  atSeparator : ∀ j, m ≤ j → j < n → (c.skip j).atSeparator = false

namespace Clear

variable {m n : Nat} {c c' : Cursor}

theorem refl (m : Nat) (c : Cursor) : Clear m 0 c c := ⟨rfl, rfl, by omega, by omega⟩

theorem advance (h : Clear m n c c') (hne : c'.ahead ≠ [])
    (hsep : m ≤ n → c'.atSeparator = false) : Clear m (n + 1) c c'.advance where
  eq := by rw [h.eq, Cursor.skip_succ]
  index := by
    obtain ⟨x, xs, hx⟩ := List.exists_cons_of_ne_nil hne
    simp only [Cursor.advance, hx, h.index, Nat.add_assoc]
  length := by
    obtain ⟨x, xs, hx⟩ := List.exists_cons_of_ne_nil hne
    simp only [h.length, Cursor.advance, hx, List.length_cons, Nat.add_assoc, Nat.add_comm 1]
  atSeparator := by
    intro j hm hj
    rcases Nat.lt_succ_iff_lt_or_eq.mp hj with hj | rfl
    · exact h.atSeparator j hm hj
    · rw [← h.eq]
      exact hsep hm

end Clear

/-- A run beside itself, from `c₀` on. -/
theorem lockstep_clear (c₀ : Cursor) :
    Lockstep 0 fun c d => c = d ∧ (∀ m ∈ c.ahead, m.Guarded) ∧ ∃ n, Clear 0 n c₀ c where
  resembles := by
    rintro c _ ⟨rfl, -, -⟩
    exact ⟨rfl, rfl, fun _ => rfl, fun _ => rfl, fun _ => rfl, fun _ => rfl⟩
  guarded := fun h => .of_ahead h.2.1
  index := by
    rintro c _ ⟨rfl, -, -⟩
    rfl
  take := by
    rintro c _ ⟨rfl, hguarded, n, hclear⟩ hsep
    rw [Cursor.take_snd]
    by_cases hnil : c.ahead = []
    · have hadvance : c.advance = c := by simp only [Cursor.advance, hnil]
      rw [hadvance]
      exact ⟨rfl, hguarded, n, hclear⟩
    · refine ⟨rfl, fun m hm => hguarded m ?_, n + 1, hclear.advance hnil fun _ => hsep⟩
      have hahead := Cursor.ahead_skip 1 c
      rw [Cursor.skip, Cursor.skip_zero] at hahead
      rw [hahead] at hm
      exact List.mem_of_mem_drop hm

/-- **No batch passes a separator line.** -/
theorem exists_skip_batch {c : Cursor} (h : ∀ m ∈ c.ahead, m.Guarded) :
    ∃ n, Clear 0 n c (batch c).rest :=
  ((lockstep_clear c).batch ⟨rfl, h, 0, .refl 0 c⟩).rest.2.2

/-- **A separator passes its own line and no other.** -/
theorem exists_skip_separator {c : Cursor} (h : ∀ m ∈ c.ahead, m.Guarded) (hne : c.ahead ≠ []) :
    ∃ n, 0 < n ∧ Clear 1 n c (separator c).rest := by
  have hword : Clear 1 1 c c.take.2 := by
    rw [Cursor.take_snd]
    exact (Clear.refl 1 c).advance hne (by omega)
  simp only [separator]
  unfold Cursor.takeIf
  split
  · rename_i hcount
    rw [Bool.and_eq_true] at hcount
    refine ⟨2, by omega, ?_⟩
    have hguarded : c.take.2.Guarded := by
      refine .of_ahead fun m hm => h m ?_
      rw [hword.eq, Cursor.ahead_skip] at hm
      exact List.mem_of_mem_drop hm
    rw [Cursor.take_snd c.take.2]
    refine hword.advance ?_ fun _ => hguarded.atSeparator_of_kind (by decide) hcount.1
    intro hnil
    simp [Cursor.atKind, Cursor.kind, hnil] at hcount
  · exact ⟨1, by omega, hword⟩

end Outline

end SqlCaret
