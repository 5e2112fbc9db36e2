import SqlCaret.Proofs.Outline.Parts
import SqlCaret.Proofs.Tree.Stretches

/-!
# Outline — separators

Where the separators of a script stand.  `Separated c₀ c` says of the parts ahead of `c`, which
stands somewhere behind `c₀`, that they have one separator for each separator line, at the mark
that the line starts with, one batch more than that, and no other node with such a mark in it.

It holds of every script whose separators are guarded (`separated`): it only needs that a batch
passes no separator line and a separator just its own.
-/

namespace SqlCaret.Outline

open SqlCaret.Tree

/-- The indices of the marks ahead of `c` at which separator lines start, counted from `c₀`. -/
def linesAhead (c₀ c : Cursor) : List Nat :=
  (List.range' c.index c.ahead.length).filter fun i => (c₀.skip i).atSeparator

/-- The stretches of the parts ahead. -/
def stretchesAhead (c : Cursor) : List Stretch := stretchesOfList c.index (parts c).value

/-- The parts ahead of `c` are parted by the separator lines and by nothing else. -/
structure Separated (c₀ c : Cursor) : Prop where
  lines : ((stretchesAhead c).filter (·.kind == .separator)).map (·.first) = linesAhead c₀ c
  clear : ∀ s ∈ stretchesAhead c, s.kind ≠ .separator → ∀ i, s.first ≤ i → i < s.stop →
    (c₀.skip i).atSeparator = false
  batches : (nodeKinds (parts c).value).count .batch = (linesAhead c₀ c).length + 1

/-- The stretches of a batch are its own and those of its statements. -/
theorem of_mem_stretches_batch {c : Cursor} {first : Nat} {s : Stretch}
    (hs : s ∈ stretches first (batch c).value) :
    s.kind ≠ .separator ∧ first ≤ s.first ∧ s.stop ≤ first + (leaves (batch c).value).length := by
  refine ⟨?_, mem_stretches first _ s hs⟩
  have hrow := isRow_read_row.2 .never c
  have hdeep : (nodeKinds (row .never c).value).all Kind.isDeep = true :=
    List.all_eq_true.mpr fun k hk =>
      Kind.isDeep_of_isItem (List.all_eq_true.mp hrow.items k hk)
  have hvalue : (batch c).value = .node .batch (row .never c).value := rfl
  rw [hvalue, stretches_node, List.mem_cons] at hs
  rcases hs with rfl | hs
  · exact nofun
  · intro hkind
    have := isDeep_of_mem_stretchesOfList first _ hrow.formed hdeep s hs
    rw [hkind] at this
    cases this

theorem filter_stretches_batch (c : Cursor) (first : Nat) :
    (stretches first (batch c).value).filter (·.kind == .separator) = [] := by
  rw [List.filter_eq_nil_iff]
  intro s hs
  simpa using (of_mem_stretches_batch hs).1

theorem stretchesOfList_of_allLeaves {α : Type} {ts : List (Tree α)} (h : AllLeaves ts)
    (first : Nat) : stretchesOfList first ts = [] := by
  induction ts generalizing first with
  | nil => rw [stretchesOfList_nil]
  | cons t ts ih =>
      obtain ⟨a, rfl⟩ := h t List.mem_cons_self
      rw [stretchesOfList_cons, stretches_leaf, ih fun u hu => h u (List.mem_cons_of_mem _ hu)]
      rfl

theorem stretches_separator (c : Cursor) (first : Nat) :
    stretches first (separator c).value =
      [⟨.separator, first, first + (leaves (separator c).value).length⟩] := by
  have h : AllLeaves (c.take.1 ++ (c.take.2.takeIf (c.take.2.atKind .number &&
      !c.take.2.afterBreak 0)).1) := (allLeaves_take c).append (allLeaves_takeIf _ _)
  simp only [separator, stretches_node, stretchesOfList_of_allLeaves h, leaves_node]

/-- Where no separator line is ahead, the stretches ahead are those of one batch. -/
theorem stretchesAhead_last {c : Cursor} (h : (batch c).rest.atSeparator = false) :
    stretchesAhead c = stretches c.index (batch c).value := by
  simp [stretchesAhead, parts_last h]

/-- Otherwise they are those of a batch, of a separator and of the parts behind it. -/
theorem stretchesAhead_line {c : Cursor} (h : (batch c).rest.atSeparator = true) :
    stretchesAhead c = stretches c.index (batch c).value ++
      ⟨.separator, (batch c).rest.index, (separator (batch c).rest).rest.index⟩ ::
        stretchesAhead (separator (batch c).rest).rest := by
  have hindex := (consumes_batch c).index
  have hindex' := (consumes_separator (batch c).rest).index
  simp only [stretchesAhead, parts_line h, stretchesOfList_cons, stretches_separator, ← hindex,
    ← hindex', List.singleton_append]

theorem filter_range'_eq_nil {p : Nat → Bool} {start n : Nat}
    (h : ∀ i, start ≤ i → i < start + n → p i = false) : (List.range' start n).filter p = [] := by
  rw [List.filter_eq_nil_iff]
  intro i hi
  obtain ⟨hle, hlt⟩ := List.mem_range'_1.mp hi
  simp [h i hle hlt]

section
variable {c₀ c : Cursor} (hguarded : ∀ m ∈ c₀.ahead, m.Guarded) (hc : c = c₀.skip c.index)
include hc

theorem skip_index_add (j : Nat) : c₀.skip (c.index + j) = c.skip j := by
  rw [Cursor.skip_add, ← hc]

/-- The marks that are passed clear of separator lines, as seen from `c₀`. -/
theorem Clear.free {m n : Nat} {c' : Cursor} (h : Clear m n c c') :
    ∀ i, c.index + m ≤ i → i < c.index + n → (c₀.skip i).atSeparator = false := by
  intro i hle hlt
  obtain ⟨j, rfl⟩ := Nat.exists_eq_add_of_le (Nat.le_of_add_right_le hle)
  rw [skip_index_add hc]
  exact h.atSeparator j (Nat.le_of_add_le_add_left hle) (Nat.lt_of_add_lt_add_left hlt)

theorem Clear.eq_skip {m n : Nat} {c' : Cursor} (h : Clear m n c c') :
    c' = c₀.skip c'.index := by
  rw [h.index, skip_index_add hc, h.eq]

include hguarded

theorem guarded_ahead : ∀ m ∈ c.ahead, m.Guarded := by
  intro m hm
  rw [hc, Cursor.ahead_skip] at hm
  exact hguarded m (List.mem_of_mem_drop hm)

/-- No separator line starts at a mark of a batch. -/
theorem separated_batch :
    ∃ n, Clear 0 n c (batch c).rest ∧ (leaves (batch c).value).length = n ∧
      ∀ i, c.index ≤ i → i < c.index + n → (c₀.skip i).atSeparator = false := by
  obtain ⟨n, h⟩ := exists_skip_batch (guarded_ahead hguarded hc)
  have hindex := (consumes_batch c).index
  rw [h.index] at hindex
  exact ⟨n, h, by omega, h.free hc⟩

/-- One separator line starts at the marks of a separator, at the first of them. -/
theorem separated_separator (hsep : c.atSeparator = true) :
    ∃ n, Clear 1 n c (separator c).rest ∧ (leaves (separator c).value).length = n ∧
      (List.range' c.index n).filter (fun i => (c₀.skip i).atSeparator) = [c.index] := by
  obtain ⟨n, hpos, h⟩ := exists_skip_separator (guarded_ahead hguarded hc)
    (ahead_ne_nil_of_atSeparator hsep)
  have hindex := (consumes_separator c).index
  rw [h.index] at hindex
  refine ⟨n, h, by omega, ?_⟩
  obtain ⟨k, rfl⟩ := Nat.exists_eq_add_one.mpr hpos
  have hfirst : (c₀.skip c.index).atSeparator = true := by rw [← hc, hsep]
  have hnone : (List.range' (c.index + 1) k).filter (fun i => (c₀.skip i).atSeparator) = [] :=
    filter_range'_eq_nil fun i hle hlt => h.free hc i hle (by omega)
  rw [List.range'_succ, List.filter_cons, hnone, if_pos hfirst]

/-- Where no separator line is ahead, there is one batch. -/
theorem separated_last (hsep : (batch c).rest.atSeparator = false) : Separated c₀ c := by
  obtain ⟨n, hbatch, hleaves, hfree⟩ := separated_batch hguarded hc
  have hend : (batch c).rest.ahead = [] := (batch_stops c).resolve_left (by simp [hsep])
  have hn : c.ahead.length = n := by simp [hbatch.length, hend]
  have hstretches := stretchesAhead_last hsep
  have hlines : linesAhead c₀ c = [] := by
    rw [linesAhead, hn]
    exact filter_range'_eq_nil hfree
  refine ⟨?_, fun s hs _ i hle hlt => ?_, ?_⟩
  · rw [hlines, hstretches, filter_stretches_batch]
    rfl
  · rw [hstretches] at hs
    obtain ⟨-, hfirst, hstop⟩ := of_mem_stretches_batch hs
    exact hfree i (by omega) (by omega)
  · rw [hlines, parts_last hsep]
    rfl

/-- A batch and a separator in front of parts that the separator lines part. -/
theorem separated_line (hsep : (batch c).rest.atSeparator = true)
    (ih : (separator (batch c).rest).rest = c₀.skip (separator (batch c).rest).rest.index →
      Separated c₀ (separator (batch c).rest).rest) : Separated c₀ c := by
  obtain ⟨n, hbatch, hleaves, hfree⟩ := separated_batch hguarded hc
  have hc₁ := hbatch.eq_skip hc
  obtain ⟨k, hline, -, hfirst⟩ := separated_separator hguarded hc₁ hsep
  obtain ⟨hlines', hclear', hbatches'⟩ := ih (hline.eq_skip hc₁)
  have hindex := hbatch.index
  have hindex' := hline.index
  -- the parts ahead are a batch, a separator and the parts behind it, and so are the marks
  have hstretches := stretchesAhead_line hsep
  have hlines : linesAhead c₀ c =
      (batch c).rest.index :: linesAhead c₀ (separator (batch c).rest).rest := by
    have hlength : c.ahead.length = n + (k + (separator (batch c).rest).rest.ahead.length) := by
      rw [hbatch.length, hline.length]
    rw [linesAhead, hlength, ← List.range'_append_1, ← List.range'_append_1, List.filter_append,
      List.filter_append, filter_range'_eq_nil hfree, ← hindex, hfirst, ← hindex']
    rfl
  refine ⟨?_, fun s hs hkind i hle hlt => ?_, ?_⟩
  · rw [hstretches, hlines, List.filter_append, filter_stretches_batch, ← hlines']
    rfl
  · rw [hstretches, List.mem_append, List.mem_cons] at hs
    rcases hs with hs | rfl | hs
    · obtain ⟨-, hfirst, hstop⟩ := of_mem_stretches_batch hs
      exact hfree i (by omega) (by omega)
    · exact absurd rfl hkind
    · exact hclear' s hs hkind i hle hlt
  · rw [hlines, List.length_cons, ← hbatches', parts_line hsep]
    simp [batch, separator]

end

/-- **Separators stand where separator lines start**, and nothing else reaches over one. -/
theorem separated {c₀ : Cursor} (hguarded : ∀ m ∈ c₀.ahead, m.Guarded) :
    ∀ c, c = c₀.skip c.index → Separated c₀ c :=
  parts_induction (fun _ hsep hc => separated_last hguarded hc hsep)
    (fun _ hsep ih hc => separated_line hguarded hc hsep ih)

/-! ### How many batches -/

/-- How many separator lines start among the marks. -/
def lineCount : List Mark → Nat
  | [] => 0
  | m :: ms => (if (Cursor.ofMarks (m :: ms)).atSeparator then 1 else 0) + lineCount ms

theorem length_linesAhead {c₀ : Cursor} :
    ∀ c, c = c₀.skip c.index → (linesAhead c₀ c).length = lineCount c.ahead := by
  intro c hc
  induction hl : c.ahead generalizing c with
  | nil => simp [linesAhead, hl, lineCount]
  | cons m ms ih =>
      have hadvance : c.advance.ahead = ms ∧ c.advance.index = c.index + 1 := by
        simp [Cursor.advance, hl]
      have hothers := ih c.advance (by rw [hadvance.2, Cursor.skip_succ, ← hc]) hadvance.1
      have hfirst : (c₀.skip c.index).atSeparator = (Cursor.ofMarks (m :: ms)).atSeparator := by
        rw [← hc, ← hl]
        rfl
      rw [linesAhead, hadvance.1, hadvance.2] at hothers
      rw [linesAhead, hl, List.length_cons, List.range'_succ, List.filter_cons, hfirst, lineCount,
        ← hothers]
      split
      · rw [List.length_cons, Nat.add_comm]
      · rw [Nat.zero_add]

/-- **There is one batch more than separator lines.** -/
theorem count_batch_parts {marks : List Mark} (h : ∀ m ∈ marks, m.Guarded) :
    (nodeKinds (parts (.ofMarks marks)).value).count .batch = lineCount marks + 1 := by
  have hahead : ∀ m ∈ (Cursor.ofMarks marks).ahead, m.Guarded := h
  rw [(separated hahead _ rfl).batches, length_linesAhead _ rfl]
  rfl

end SqlCaret.Outline
