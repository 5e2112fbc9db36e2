import Mathlib.Data.List.DropRight
import SqlCaret.Proofs.Text.Boundaries
import SqlCaret.Proofs.Text.Points

/-!
# Text — line starts

The point of an offset, found by a search.  `LineIndex.starts` lists where the lines of a text
start: at its beginning and behind every line feed.  `LineIndex.search?` goes back from the offset
to a character boundary, looks among the starts by halving for those that are no later
(`frontLength?`), takes the last of them and counts the characters from there to the boundary.

Each of its steps can fail: there may be nothing to go back to, no such start, no line in front of
the first one, or a cut inside of a character.  None of them does, and the point that is found is
the one that the line index answers (`LineIndex.search?_eq`).  `LineIndex.point_counts` says what
that point is, and that it moves on from each boundary to the next.
-/

namespace SqlCaret

/-! ### Halving -/

/-- How many of `xs` stand in front of the first one that `p` does not hold of, found among the
`size` of them from `base` on by halving. -/
def halve? (p : Nat → Bool) (xs : List Nat) (base size : Nat) : Option Nat :=
  if 1 < size then
    xs[base + size / 2]?.bind fun x =>
      halve? p xs (if p x then base + size / 2 else base) (size - size / 2)
  else xs[base]?.map fun x => if p x then base + 1 else base
termination_by size

/-- How many of `xs` stand in front of the first one that `p` does not hold of, if `p` holds of none
behind it. -/
def frontLength? (p : Nat → Bool) (xs : List Nat) : Option Nat :=
  if xs.isEmpty then some 0 else halve? p xs 0 xs.length

section
variable {p : Nat → Bool} {xs ys : List Nat}

/-- What `p` says of an entry is which side of the end of the front it is on. -/
theorem exists_getElem?_front (hxs : ∀ x ∈ xs, p x = true) (hys : ∀ y ∈ ys, p y = false) {i : Nat}
    (hi : i < (xs ++ ys).length) :
    ∃ x, (xs ++ ys)[i]? = some x ∧ p x = decide (i < xs.length) := by
  refine ⟨(xs ++ ys)[i], List.getElem?_eq_getElem hi, ?_⟩
  rcases Nat.lt_or_ge i xs.length with h | h
  · rw [List.getElem_append_left h, hxs _ (List.getElem_mem h), decide_eq_true h]
  · rw [List.getElem_append_right h, hys _ (List.getElem_mem _),
      decide_eq_false (Nat.not_lt.mpr h)]

theorem halve?_eq (hxs : ∀ x ∈ xs, p x = true) (hys : ∀ y ∈ ys, p y = false) {base size : Nat}
    (hsize : 0 < size) (hlow : base ≤ xs.length) (hhigh : xs.length ≤ base + size)
    (hend : base + size ≤ (xs ++ ys).length) :
    halve? p (xs ++ ys) base size = some xs.length := by
  -- the end of the front stays between `base` and `base + size`
  induction hn : size using Nat.strongRecOn generalizing base size with
  | ind n ih =>
      subst hn
      rw [halve?]
      split
      next hlarge =>
        obtain ⟨x, hx, hp⟩ := exists_getElem?_front hxs hys
          (show base + size / 2 < (xs ++ ys).length by omega)
        rw [hx, Option.bind_some, hp]
        by_cases h : base + size / 2 < xs.length
        · rw [decide_eq_true h, if_pos rfl]
          exact ih _ (by omega) (by omega) (by omega) (by omega) (by omega) rfl
        · rw [decide_eq_false h, if_neg Bool.false_ne_true]
          exact ih _ (by omega) (by omega) (by omega) (by omega) (by omega) rfl
      next hsmall =>
        obtain ⟨x, hx, hp⟩ := exists_getElem?_front hxs hys
          (show base < (xs ++ ys).length by omega)
        rw [hx, Option.map_some, hp]
        by_cases h : base < xs.length
        · rw [decide_eq_true h, if_pos rfl]
          exact congrArg some (by omega)
        · rw [decide_eq_false h, if_neg Bool.false_ne_true]
          exact congrArg some (by omega)

/-- **Halving finds the end of the front.** -/
theorem frontLength?_append (hxs : ∀ x ∈ xs, p x = true) (hys : ∀ y ∈ ys, p y = false) :
    frontLength? p (xs ++ ys) = some xs.length := by
  rw [frontLength?]
  split
  next h =>
    rw [List.isEmpty_iff, List.append_eq_nil_iff] at h
    rw [h.1, List.length_nil]
  next h =>
    have hpos : 0 < (xs ++ ys).length := List.length_pos_of_ne_nil (by simpa using h)
    refine halve?_eq hxs hys hpos (Nat.zero_le _) ?_ (Nat.le_of_eq (Nat.zero_add _))
    rw [List.length_append]
    omega

end

namespace LineIndex

/-- The byte offsets of the line feeds of a text that starts at byte `start`. -/
def breaks (start : Nat) : List Char → List Nat
  | [] => []
  | c :: cs => if c = '\n' then start :: breaks (start + 1) cs else breaks (start + c.utf8Size) cs

/-- The byte offsets at which the lines of a text start. -/
def starts (text : List Char) : List Nat := 0 :: (breaks 0 text).map (· + 1)

/-- The part of a text between two byte offsets that stand in order where its bytes can be cut. -/
def between? (start stop : Nat) (text : List Char) : Option (List Char) :=
  let bytes := Utf8.encode text
  if start ≤ stop ∧ Utf8.isCut bytes start ∧ Utf8.isCut bytes stop then
    some (Utf8.slice start stop text)
  else none

/-- The point at a byte offset, found by a search. -/
def search? (text : List Char) (offset : Nat) : Option Point := do
  let bytes := Utf8.encode text
  let stop ← Utf8.lastCut? bytes (min offset bytes.length)
  match ← frontLength? (· ≤ stop) (starts text) with
  | 0 => none
  | line + 1 => do
    let start ← (starts text)[line]?
    let chars ← between? start stop text
    return ⟨line + 1, chars.length⟩

/-! ### The starts of lines -/

theorem breaks_append (start : Nat) (a b : List Char) :
    breaks start (a ++ b) = breaks start a ++ breaks (start + Utf8.size a) b := by
  induction a generalizing start with
  | nil => rfl
  | cons c a ih =>
      rw [List.cons_append, breaks, breaks, ih, ih, Utf8.size_cons]
      by_cases h : c = '\n'
      · subst h
        have hn : ('\n' : Char).utf8Size = 1 := by decide
        rw [if_pos rfl, if_pos rfl, hn, ← Nat.add_assoc, List.cons_append]
      · rw [if_neg h, if_neg h, ← Nat.add_assoc]

theorem length_breaks (start : Nat) (a : List Char) : (breaks start a).length = a.count '\n' := by
  induction a generalizing start with
  | nil => rfl
  | cons c a ih =>
      by_cases h : c = '\n'
      · subst h
        rw [breaks, if_pos rfl, List.length_cons, ih, List.count_cons_self]
      · rw [breaks, if_neg h, ih, List.count_cons_of_ne h]

theorem bounds_of_mem_breaks {start n : Nat} {a : List Char} (h : n ∈ breaks start a) :
    start ≤ n ∧ n < start + Utf8.size a := by
  induction a generalizing start with
  | nil => cases h
  | cons c a ih =>
      have hpos := c.utf8Size_pos
      rw [Utf8.size_cons]
      by_cases hc : c = '\n'
      · subst hc
        have hn : ('\n' : Char).utf8Size = 1 := by decide
        rw [breaks, if_pos rfl, List.mem_cons] at h
        rcases h with rfl | h
        · omega
        · have := ih h
          omega
      · rw [breaks, if_neg hc] at h
        have := ih h
        omega

theorem map_start_split (start : Nat) (cs : List Char) :
    (Line.split start cs).map Line.start = start :: (breaks start cs).map (· + 1) := by
  induction cs generalizing start with
  | nil => rfl
  | cons c cs ih =>
      by_cases h : c = '\n'
      · subst h
        rw [Line.split_newline, List.map_cons, ih, breaks, if_pos rfl, List.map_cons]
      · obtain ⟨ls, hls⟩ := Line.exists_split_eq_cons (start + c.utf8Size) cs
        have ih := ih (start + c.utf8Size)
        rw [hls, List.map_cons] at ih
        rw [Line.split_other h hls, List.map_cons, breaks, if_neg h, (List.cons.inj ih).2]

/-- **The starts are those of the lines.** -/
theorem starts_eq (text : List Char) : starts text = (SqlCaret.lines text).map Line.start :=
  (map_start_split 0 text).symm

/-- Of the starts, as many are no later than a cut as lines begin before it. -/
theorem frontLength?_starts (a b : List Char) :
    frontLength? (· ≤ Utf8.size a) (starts (a ++ b)) = some (a.count '\n' + 1) := by
  have hsplit : starts (a ++ b) =
      (0 :: (breaks 0 a).map (· + 1)) ++ (breaks (Utf8.size a) b).map (· + 1) := by
    rw [starts, breaks_append, List.map_append, Nat.zero_add, List.cons_append]
  rw [hsplit, frontLength?_append]
  · rw [List.length_cons, List.length_map, length_breaks]
  · intro n hn
    rw [List.mem_cons, List.mem_map] at hn
    rcases hn with rfl | ⟨m, hm, rfl⟩
    · exact decide_eq_true (Nat.zero_le _)
    · have := bounds_of_mem_breaks hm
      exact decide_eq_true (by omega)
  · intro n hn
    obtain ⟨m, hm, rfl⟩ := List.mem_map.mp hn
    have := bounds_of_mem_breaks hm
    exact decide_eq_false (by omega)

/-- The last of them is where the line at the cut starts. -/
theorem getElem?_starts (a b : List Char) :
    (starts (a ++ b))[a.count '\n']? = some (Utf8.size (Line.fullLines a)) := by
  rw [starts_eq, List.getElem?_map, SqlCaret.lines, Line.getElem?_split, Option.map_some,
    Nat.zero_add]

theorem between?_lastLine (a b : List Char) :
    between? (Utf8.size (Line.fullLines a)) (Utf8.size a) (a ++ b) = some (Line.lastLine a) := by
  have hsize := Line.size_fullLines_add a
  have htext : a ++ b = Line.fullLines a ++ (Line.lastLine a ++ b) := by
    rw [← List.append_assoc, Line.fullLines_append_lastLine]
  have hstart : Utf8.isCut (Utf8.encode (a ++ b)) (Utf8.size (Line.fullLines a)) = true :=
    Utf8.isCut_encode_iff.mpr ⟨_, _, htext, rfl⟩
  have hstop : Utf8.isCut (Utf8.encode (a ++ b)) (Utf8.size a) = true :=
    Utf8.isCut_encode_iff.mpr ⟨a, b, rfl, rfl⟩
  rw [between?, if_pos ⟨by omega, hstart, hstop⟩, ← hsize, htext, Utf8.slice_size_append]

/-- **The search finds the point.** -/
theorem search?_eq (text : List Char) (offset : Nat) :
    search? text offset = some ((ofText text).point offset) := by
  have htext := Utf8.takeBytes_append_dropBytes offset text
  have hstop := Utf8.lastCut?_encode text offset
  rw [point_ofText]
  generalize Utf8.takeBytes offset text = a at htext hstop ⊢
  generalize Utf8.dropBytes offset text = b at htext
  subst htext
  simp only [search?, hstop, frontLength?_starts, getElem?_starts, between?_lastLine,
    Option.bind_eq_bind, Option.bind_some]
  rfl

end LineIndex

/-- The last line of a text is its longest ending without a line feed. -/
theorem Line.lastLine_eq_rtakeWhile (cs : List Char) :
    lastLine cs = cs.rtakeWhile (· != '\n') := by
  induction cs using List.reverseRecOn with
  | nil => rfl
  | append_singleton cs c ih =>
      rw [lastLine_concat, List.rtakeWhile_concat, ih]
      by_cases h : c = '\n' <;> simp [h]

/-- **The point of an offset counts lines and characters.**  Take the last place where characters
meet that is neither behind the offset nor behind the end of the text.  The line is one more than
the line feeds in front of that place, and the offset on it is the number of characters behind the
last of them.  The search finds this point without a step that fails.  From one place where
characters meet to a later one the points move on, so no two of these places share a point. -/
theorem LineIndex.point_counts (text : List Char) :
    (∀ offset, ∃ o, IsGreatest {b | Utf8.IsBoundary text b ∧ b ≤ min offset (Utf8.size text)} o ∧
      search? text offset = some ((ofText text).point offset) ∧
      (ofText text).point offset = ⟨1 + (Utf8.takeBytes o text).count '\n',
        ((Utf8.takeBytes o text).rtakeWhile (· != '\n')).length⟩) ∧
    (∀ m n, Utf8.IsBoundary text m → Utf8.IsBoundary text n → m < n →
      (ofText text).point m < (ofText text).point n) ∧
    ∀ m n, Utf8.IsBoundary text m → Utf8.IsBoundary text n →
      (ofText text).point m = (ofText text).point n → m = n := by
  refine ⟨fun offset => ?_, fun m n => point_lt_point_of_lt, fun m n hm hn h => ?_⟩
  · refine ⟨_, Utf8.isGreatest_size_takeBytes text offset, search?_eq text offset, ?_⟩
    have hcut : Utf8.takeBytes (Utf8.size (Utf8.takeBytes offset text)) text =
        Utf8.takeBytes offset text := by
      conv => lhs; arg 2; rw [← Utf8.takeBytes_append_dropBytes offset text]
      exact Utf8.takeBytes_size_append _ _
    rw [hcut, point_ofText, Point.after, Line.lastLine_eq_rtakeWhile, Nat.add_comm 1]
  · exact Nat.le_antisymm (le_of_point_le hm hn (h ▸ Point.le_refl _))
      (le_of_point_le hn hm (h ▸ Point.le_refl _))

/-- Inside of a letter of two bytes the point is the one in front of the letter, and behind it the
points have moved on. -/
theorem LineIndex.point_counts_inside :
    let text := ['a', '\n', 'ü']
    Utf8.IsBoundary text 2 ∧ Utf8.IsBoundary text 4 ∧ 2 < 4 ∧
      search? text 3 = some ⟨2, 0⟩ ∧ (ofText text).point 2 < (ofText text).point 4 := by
  intro text
  obtain ⟨hcounts, hlt, -⟩ := point_counts text
  obtain ⟨-, -, hsearch, -⟩ := hcounts 3
  have hpoint : (ofText text).point 3 = ⟨2, 0⟩ := by decide
  have h₂ : Utf8.IsBoundary text 2 := ⟨['a', '\n'], ['ü'], rfl, rfl⟩
  have h₄ : Utf8.IsBoundary text 4 := ⟨['a', '\n', 'ü'], [], rfl, rfl⟩
  exact ⟨h₂, h₄, by decide, hpoint ▸ hsearch, hlt 2 4 h₂ h₄ (by decide)⟩

end SqlCaret
