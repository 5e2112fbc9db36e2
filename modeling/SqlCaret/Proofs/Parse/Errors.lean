import SqlCaret.Syntax.Parse

/-!
# Parse — the order of errors

`SyntaxError.sort` puts errors in order of their offsets (`pairwise_sort`) and keeps the order of
errors at one offset (`filter_offset_sort`).  Errors in that order are determined by what stands at
each offset (`eq_of_filter_offset`), so some of them can be picked before they are sorted or
afterwards (`filter_sort`).
-/

namespace SqlCaret.SyntaxError

variable {es fs : List SyntaxError}

theorem sort_eq_nil_iff : sort es = [] ↔ es = [] := by
  rw [← List.length_eq_zero_iff, sort, List.length_mergeSort, List.length_eq_zero_iff]

theorem perm_sort (es : List SyntaxError) : (sort es).Perm es := List.mergeSort_perm _ _

/-! ### In order -/

/-- In order of offset. -/
def InOrder (es : List SyntaxError) : Prop := es.Pairwise fun a b => a.offset ≤ b.offset

/-- The order that errors are sorted by is one. -/
theorem le_trans (a b c : SyntaxError) (hab : decide (a.offset ≤ b.offset) = true)
    (hbc : decide (b.offset ≤ c.offset) = true) : decide (a.offset ≤ c.offset) = true := by
  rw [decide_eq_true_eq] at *
  exact Nat.le_trans hab hbc

theorem le_total (a b : SyntaxError) :
    (decide (a.offset ≤ b.offset) || decide (b.offset ≤ a.offset)) = true := by
  rw [Bool.or_eq_true, decide_eq_true_eq, decide_eq_true_eq]
  exact Nat.le_total a.offset b.offset

theorem pairwise_sort (es : List SyntaxError) : InOrder (sort es) :=
  (List.pairwise_mergeSort le_trans le_total es).imp of_decide_eq_true

/-- **Errors at one offset keep their order.** -/
theorem filter_offset_sort (es : List SyntaxError) (o : Nat) :
    (sort es).filter (·.offset = o) = es.filter (·.offset = o) := by
  have horder : (es.filter (·.offset = o)).Pairwise
      fun a b => decide (a.offset ≤ b.offset) = true := by
    refine List.pairwise_of_forall_mem_list fun a ha b hb => ?_
    have ha := (List.mem_filter.mp ha).2
    have hb := (List.mem_filter.mp hb).2
    rw [decide_eq_true_eq] at *
    omega
  have hsub : (es.filter (·.offset = o)).Sublist (sort es) :=
    List.sublist_mergeSort le_trans le_total horder List.filter_sublist
  have hsub := hsub.filter (·.offset = o)
  rw [List.filter_filter] at hsub
  simp only [Bool.and_self] at hsub
  exact (hsub.eq_of_length ((perm_sort es).filter _).length_eq.symm).symm

/-- An error that stands at its offset among others comes no earlier than the first of them. -/
theorem offset_le_of_filter_eq {e f : SyntaxError} (hfirst : ∀ x ∈ fs, f.offset ≤ x.offset)
    (h : (e :: es).filter (·.offset = e.offset) = (f :: fs).filter (·.offset = e.offset)) :
    f.offset ≤ e.offset := by
  have hmem : e ∈ (f :: fs).filter (·.offset = e.offset) := by
    rw [← h]
    simp
  rcases List.mem_cons.mp (List.mem_filter.mp hmem).1 with rfl | hmem
  · exact Nat.le_refl _
  · exact hfirst e hmem

/-- **Errors in order are determined by what stands at each offset.** -/
theorem eq_of_filter_offset (hes : InOrder es) (hfs : InOrder fs)
    (h : ∀ o, es.filter (·.offset = o) = fs.filter (·.offset = o)) : es = fs := by
  induction es generalizing fs with
  | nil =>
      cases fs with
      | nil => rfl
      | cons f fs => simpa using h f.offset
  | cons e es ih =>
      cases fs with
      | nil => simpa using h e.offset
      | cons f fs =>
          obtain ⟨hefirst, hes⟩ := List.pairwise_cons.mp hes
          obtain ⟨hffirst, hfsTail⟩ := List.pairwise_cons.mp hfs
          have hoffset : e.offset = f.offset := Nat.le_antisymm
            (offset_le_of_filter_eq hefirst (h f.offset).symm)
            (offset_le_of_filter_eq hffirst (h e.offset))
          have hhead := h e.offset
          simp only [List.filter_cons, hoffset, decide_true, if_true, List.cons.injEq] at hhead
          obtain rfl := hhead.1
          refine congrArg (e :: ·) (ih hes hfsTail fun o => ?_)
          have ho := h o
          simp only [List.filter_cons] at ho
          split at ho
          · exact (List.cons.inj ho).2
          · exact ho

/-- **Picking and sorting.**  It does not matter which comes first. -/
theorem filter_sort (p : SyntaxError → Bool) (es : List SyntaxError) :
    (sort es).filter p = sort (es.filter p) := by
  refine eq_of_filter_offset ((pairwise_sort es).filter p) (pairwise_sort _) fun o => ?_
  have hswap : ∀ es : List SyntaxError,
      (es.filter p).filter (·.offset = o) = (es.filter (·.offset = o)).filter p := by
    intro es
    simp only [List.filter_filter, Bool.and_comm]
  rw [filter_offset_sort, hswap, hswap, filter_offset_sort]

/-- A shift of all errors keeps their order. -/
theorem map_sort {f : SyntaxError → SyntaxError}
    (h : ∀ a b, a.offset ≤ b.offset ↔ (f a).offset ≤ (f b).offset) (es : List SyntaxError) :
    (sort es).map f = sort (es.map f) :=
  List.map_mergeSort fun a _ b _ => decide_eq_decide.mpr (h a b)

end SqlCaret.SyntaxError
