import SqlCaret.Proofs.Parse.Joined

/-!
# Parse — both sides of a separator line

What a parse says of a text with a separator line in it, put together from both sides.  The errors
are sorted by offset, so those in front of the end of the line come first (`Front.errors_front`)
and are told by the part in front alone.  Those behind it are the errors of the text there, further
on by the size of what is in front (`Front.errors_behind`).

The part in front has one batch for each separator line, so that its number of batches does not
depend on what is behind either (`Front.count_batch`).
-/

namespace SqlCaret

open SqlCaret.Tree
open SqlCaret.Printed (goLine goMark)

namespace SyntaxError

section
variable {n : Nat} {es : List SyntaxError}

theorem filter_lt (h : ∀ e ∈ es, e.offset < n) : es.filter (·.offset < n) = es :=
  List.filter_eq_self.mpr fun e he => decide_eq_true (h e he)

theorem filter_le (h : ∀ e ∈ es, e.offset < n) : es.filter (n ≤ ·.offset) = [] :=
  List.filter_eq_nil_iff.mpr fun e he => by simpa using h e he

theorem filter_lt_later (n : Nat) (es : List SyntaxError) :
    (es.map (later n)).filter (·.offset < n) = [] := by
  simp [later]

theorem filter_le_later (n : Nat) (es : List SyntaxError) :
    (es.map (later n)).filter (n ≤ ·.offset) = es.map (later n) := by
  simp [later]

end

end SyntaxError

namespace Parse

/-! ### Errors -/

/-- The errors of a text in the order in which they are found, those of the grammar first. -/
def unsorted (text : List Char) : List SyntaxError :=
  (Outline.script (cursor defaultSeparator text)).problems.map
      (SyntaxError.ofProblem (tokenize text)) ++ SyntaxError.ofTokens (tokenize text)

theorem errors_eq_sort (text : List Char) :
    (ofText text defaultSeparator).errors = SyntaxError.sort (unsorted text) :=
  errors_eq text defaultSeparator

section
variable {a b : List Char} {ls : List Lexeme} {l : Lexeme} {front : List Outline}
  {ps : List Problem}

/-- The errors of problems and tokens in front of the end of the line. -/
def frontErrors (a : List Char) (ps : List Problem) : List SyntaxError :=
  ps.map (SyntaxError.ofProblem (tokenize (a ++ goLine))) ++
    SyntaxError.ofTokens (tokenize (a ++ goLine))

theorem Front.offset_lt (h : Front a b front ps) :
    ∀ e ∈ frontErrors a ps, e.offset < Utf8.size (a ++ goLine) := by
  intro e he
  rcases List.mem_append.mp he with he | he
  · obtain ⟨p, hp, rfl⟩ := List.mem_map.mp he
    have hget := List.getElem?_eq_getElem (h.placed p hp)
    rw [SyntaxError.ofProblem, Token.offsetAt_of_getElem? hget]
    exact offset_lt_size (List.mem_filter.mp (List.getElem_mem _)).1
  · obtain ⟨t, ht, hfault⟩ := List.mem_filterMap.mp he
    obtain ⟨fault, -, rfl⟩ := Option.map_eq_some_iff.mp hfault
    exact offset_lt_size ht

/-- In the order in which they are found, the errors of the grammar on both sides come before those
of the tokens. -/
theorem Front.unsorted_eq (hcut : Cut a ls l) (h : Front a b front ps) :
    ∃ es es' fs fs' : List SyntaxError, es ++ es' = frontErrors a ps ∧ fs ++ fs' = unsorted b ∧
      unsorted (a ++ goLine ++ b) =
        es ++ fs.map (.later (Utf8.size (a ++ goLine))) ++
          (es' ++ fs'.map (.later (Utf8.size (a ++ goLine)))) := by
  have hlexemes := lexemes_line_append hcut b
  refine ⟨_, _, _, _, rfl, rfl, ?_⟩
  rw [unsorted, h.problems_eq, List.map_append]
  congr 2
  · refine List.map_congr_left fun p hp => ?_
    rw [SyntaxError.ofProblem, SyntaxError.ofProblem, tokenize_append hlexemes,
      Token.offsetAt_append_of_lt (h.placed p hp)]
  · rw [List.map_map, List.map_map]
    refine List.map_congr_left fun p _ => ?_
    simp only [Function.comp_apply, SyntaxError.ofProblem, Problem.later,
      offsetAt_append hlexemes, SyntaxError.later]
  · rw [tokenize_append hlexemes, SyntaxError.ofTokens_append, SyntaxError.ofTokens_map_later]

/-- **The errors in front of the end of the line.** -/
theorem Front.errors_front (hcut : Cut a ls l) (h : Front a b front ps) :
    (ofText (a ++ goLine ++ b) defaultSeparator).errors.filter
        (·.offset < Utf8.size (a ++ goLine)) =
      SyntaxError.sort (frontErrors a ps) := by
  obtain ⟨es, es', fs, fs', hfront, -, hall⟩ := h.unsorted_eq hcut
  have hlt := h.offset_lt
  rw [← hfront, List.forall_mem_append] at hlt
  rw [errors_eq_sort, SyntaxError.filter_sort, hall, ← hfront]
  simp only [List.filter_append, SyntaxError.filter_lt_later, SyntaxError.filter_lt hlt.1,
    SyntaxError.filter_lt hlt.2, List.append_nil]

/-- **The errors behind the line.** -/
theorem Front.errors_behind (hcut : Cut a ls l) (h : Front a b front ps) :
    (ofText (a ++ goLine ++ b) defaultSeparator).errors.filter
        (Utf8.size (a ++ goLine) ≤ ·.offset) =
      (ofText b defaultSeparator).errors.map (.later (Utf8.size (a ++ goLine))) := by
  obtain ⟨es, es', fs, fs', hfront, hbehind, hall⟩ := h.unsorted_eq hcut
  have hlt := h.offset_lt
  rw [← hfront, List.forall_mem_append] at hlt
  rw [errors_eq_sort, errors_eq_sort, SyntaxError.filter_sort, hall, ← hbehind,
    SyntaxError.map_sort (fun e e' => (Nat.add_le_add_iff_right).symm)]
  simp only [List.filter_append, SyntaxError.filter_le_later, SyntaxError.filter_le hlt.1,
    SyntaxError.filter_le hlt.2, List.nil_append, List.map_append]

/-! ### Batches -/

/-- A text has one batch more than separator lines. -/
theorem length_batches_eq (text : List Char) :
    (ParsedScript.ofText text defaultSeparator).script.batches.length =
      Outline.lineCount (cursor defaultSeparator text).ahead + 1 :=
  length_batches_eq_lineCount (by decide) text

theorem lineCount_line (hcut : Cut a ls l) (b : List Char) :
    Outline.lineCount (cursor defaultSeparator (a ++ goLine ++ b)).ahead =
      Outline.lineCount ((cursor defaultSeparator a).ahead ++ [goMark]) +
        Outline.lineCount (cursor defaultSeparator b).ahead := by
  rw [cursor_line hcut, Outline.lineCount_append _ (afterBreak_cursor b)]

/-- **The batches in front of the line** are all but one of those of a text that ends with the
line. -/
theorem Front.count_batch (hcut : Cut a ls l) (h : Front a b front ps) :
    (nodeKinds front).count .batch =
      (ParsedScript.ofText (a ++ goLine) defaultSeparator).script.batches.length - 1 := by
  have hfront := lineCount_line hcut []
  rw [List.append_nil] at hfront
  have hempty : Outline.lineCount (cursor defaultSeparator []).ahead = 0 := rfl
  have hbehind := (length_batches b defaultSeparator).symm.trans (length_batches_eq b)
  have hall := (length_batches (a ++ goLine ++ b) defaultSeparator).symm.trans
    (length_batches_eq (a ++ goLine ++ b))
  rw [lineCount_line hcut, h.outlines_eq, nodeKinds_append, List.count_append, nodeKinds_node,
    List.count_cons_of_ne (by decide), hbehind] at hall
  rw [length_batches_eq, hfront, hempty]
  omega

end

end Parse

end SqlCaret
