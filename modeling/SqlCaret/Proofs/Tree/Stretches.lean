import SqlCaret.Proofs.Tree.Rows

/-!
# Trees — stretches

Where the nodes of an outline stand, told in marks: `stretches` answers for each node how many
marks come before it and how many before what comes behind it.  A node that stands in another
stands inside its stretch (`mem_stretchesOfList`).

The rows of the syntax tree tell the same in bytes (`Weaves.rows_match`): a node starts where the
significant token stands that its stretch starts with, and it stops before the one behind it.
-/

namespace SqlCaret

open SqlCaret.Tree

/-- The place of a node among the marks of an outline. -/
structure Stretch where
  kind : Kind
  /-- How many marks come before it. -/
  first : Nat
  /-- How many marks come before what stands behind it. -/
  stop : Nat
deriving Repr, DecidableEq

namespace Kind

/-- Neither a script nor one of its parts. -/
def isDeep (k : Kind) : Bool := k != .script && k != .batch && k != .separator

/-- Statements and errors stand inside of a batch. -/
theorem isDeep_of_isItem {k : Kind} (h : k.isItem = true) : k.isDeep = true := by
  cases k <;> first | rfl | cases h

/-- Only a script holds batches and separators, and nothing holds a script. -/
theorem all_isDeep_of_holds {k : Kind} {ks : List Kind} (hk : k ≠ .script)
    (h : k.holds ks = true) : ks.all isDeep = true :=
  all_of_holds (fun _ => isDeep_of_isItem) rfl rfl hk h

end Kind

namespace Tree

variable {α : Type}

mutual

/-- The stretches of the nodes of a tree that has `first` marks before it. -/
def stretches (first : Nat) : Tree α → List Stretch
  | leaf _ => []
  | node k ts => ⟨k, first, first + (leavesOfList ts).length⟩ :: stretchesOfList first ts

/-- The stretches of trees in a row that have `first` marks before them. -/
def stretchesOfList (first : Nat) : List (Tree α) → List Stretch
  | [] => []
  | t :: ts => stretches first t ++ stretchesOfList (first + (leaves t).length) ts

end

@[simp] theorem stretches_leaf (first : Nat) (a : α) : stretches first (leaf a) = [] := by
  rw [stretches]

@[simp] theorem stretches_node (first : Nat) (k : Kind) (ts : List (Tree α)) :
    stretches first (node k ts) =
      ⟨k, first, first + (leavesOfList ts).length⟩ :: stretchesOfList first ts := by
  rw [stretches]

@[simp] theorem stretchesOfList_nil (first : Nat) :
    stretchesOfList first ([] : List (Tree α)) = [] := by rw [stretchesOfList]

@[simp] theorem stretchesOfList_cons (first : Nat) (t : Tree α) (ts : List (Tree α)) :
    stretchesOfList first (t :: ts) =
      stretches first t ++ stretchesOfList (first + (leaves t).length) ts := by
  rw [stretchesOfList]

/-- The stretches of two rows, the second behind the marks of the first. -/
theorem stretchesOfList_append (first : Nat) (ts us : List (Tree α)) :
    stretchesOfList first (ts ++ us) =
      stretchesOfList first ts ++ stretchesOfList (first + (leavesOfList ts).length) us := by
  induction ts generalizing first with
  | nil => simp
  | cons t ts ih => simp [ih, Nat.add_assoc]

mutual

/-- A node stands inside the tree that it is in. -/
theorem mem_stretches (first : Nat) : ∀ (t : Tree α), ∀ s ∈ stretches first t,
    first ≤ s.first ∧ s.stop ≤ first + (leaves t).length
  | leaf a, s, h => by simp at h
  | node k ts, s, h => by
      rw [stretches_node, List.mem_cons] at h
      rw [leaves_node]
      rcases h with rfl | h
      · exact ⟨Nat.le_refl _, Nat.le_refl _⟩
      · exact mem_stretchesOfList first ts s h

/-- **A node stands inside the stretch of what holds it.** -/
theorem mem_stretchesOfList (first : Nat) : ∀ (ts : List (Tree α)), ∀ s ∈ stretchesOfList first ts,
    first ≤ s.first ∧ s.stop ≤ first + (leavesOfList ts).length
  | [], s, h => by simp at h
  | t :: ts, s, h => by
      rw [stretchesOfList_cons, List.mem_append] at h
      rw [leavesOfList_cons, List.length_append]
      rcases h with h | h
      · have := mem_stretches first t s h
        omega
      · have := mem_stretchesOfList _ ts s h
        omega

end

/-! ### The nodes of a batch -/

mutual

/-- A node that stands in something else than a script is no script, no batch and no separator. -/
theorem isDeep_of_mem_stretches (first : Nat) : ∀ (t : Tree α), Formed t →
    (∀ k ∈ t.kind?, k.isDeep = true) → ∀ s ∈ stretches first t, s.kind.isDeep = true
  | leaf a, _, _, s, h => by simp at h
  | node k ts, hform, hk, s, h => by
      obtain ⟨hholds, -, hts⟩ := formed_node.mp hform
      rw [stretches_node, List.mem_cons] at h
      rcases h with rfl | h
      · exact hk k rfl
      · refine isDeep_of_mem_stretchesOfList first ts hts (Kind.all_isDeep_of_holds ?_ hholds) s h
        rintro rfl
        cases hk _ rfl

/-- Inside of a batch no batch or separator stands. -/
theorem isDeep_of_mem_stretchesOfList (first : Nat) : ∀ (ts : List (Tree α)), FormedList ts →
    (nodeKinds ts).all Kind.isDeep = true → ∀ s ∈ stretchesOfList first ts, s.kind.isDeep = true
  | [], _, _, s, h => by simp at h
  | t :: ts, hform, hk, s, h => by
      obtain ⟨ht, hts⟩ := (formedList_cons _ _).mp hform
      rw [show t :: ts = [t] ++ ts from rfl, nodeKinds_append, List.all_append,
        Bool.and_eq_true] at hk
      rw [stretchesOfList_cons, List.mem_append] at h
      rcases h with h | h
      · refine isDeep_of_mem_stretches first t ht ?_ s h
        rintro k hkind
        cases t with
        | leaf => cases hkind
        | node k' us =>
            cases hkind
            simpa using hk.1
      · exact isDeep_of_mem_stretchesOfList _ ts hts hk.2 s h

end

end Tree

/-! ### Marks and bytes -/

namespace Token

/-- Placed tokens end with their text. -/
theorem finalStop_place (ls : List Lexeme) :
    finalStop (place 0 ls) = Utf8.size (ls.flatMap (·.text)) := by
  rcases List.eq_nil_or_concat ls with rfl | ⟨ls, l, rfl⟩
  · rfl
  · simp [finalStop, place_append, place, stop]

theorem significant_append (ts us : List Token) :
    significant (ts ++ us) = significant ts ++ significant us := by
  simp [significant]

/-- The significant tokens are those of the significant lexemes. -/
theorem map_toLexeme_significant (ts : List Token) :
    (significant ts).map toLexeme = (ts.map toLexeme).filter (!·.kind.isTrivia) := by
  rw [significant, List.filter_map]
  rfl

/-- Every significant lexeme is placed as a significant token. -/
theorem length_significant_place (start : Nat) (ls : List Lexeme) :
    (significant (place start ls)).length = (significantKinds ls).length := by
  rw [← List.length_map (f := toLexeme), map_toLexeme_significant, map_toLexeme_place,
    significantKinds, List.length_map]

/-- **Where a number of significant tokens have come before.**  The next one stands no earlier
than behind the lexemes that hold them, and just there if what follows begins with it. -/
theorem offsetAt_place (pre ls : List Lexeme) :
    Utf8.size (pre.flatMap (·.text)) ≤
        offsetAt (place 0 (pre ++ ls)) (significantKinds pre).length ∧
      (SignificantFirst ls → offsetAt (place 0 (pre ++ ls)) (significantKinds pre).length =
        Utf8.size (pre.flatMap (·.text))) := by
  -- the significant tokens of the front are passed, so the next one is the first behind it
  have hsplit : (significant (place 0 (pre ++ ls)))[(significantKinds pre).length]? =
      (significant (place (Utf8.size (pre.flatMap (·.text))) ls)).head? := by
    rw [place_append, significant_append, Nat.zero_add, ← length_significant_place 0,
      List.getElem?_append_right (Nat.le_refl _), Nat.sub_self, List.head?_eq_getElem?]
  unfold offsetAt
  rw [hsplit]
  cases hhead : (significant (place (Utf8.size (pre.flatMap (·.text))) ls)).head? with
  | none =>
      rw [finalStop_place, List.flatMap_append, Utf8.size_append]
      refine ⟨Nat.le_add_right _ _, fun hfirst => ?_⟩
      cases ls with
      | nil => rfl
      | cons l ls => simp [place, significant, isTrivia, hfirst l rfl] at hhead
  | some t =>
      refine ⟨?_, fun hfirst => ?_⟩
      · have hmem : t ∈ place (Utf8.size (pre.flatMap (·.text))) ls :=
          (List.mem_filter.mp (List.mem_of_mem_head? hhead)).1
        obtain ⟨before, behind, -, hoffset⟩ := mem_place hmem
        simp only [hoffset, Nat.le_add_right]
      · cases ls with
        | nil => cases hhead
        | cons l ls =>
            simp only [place, significant, List.filter_cons, isTrivia, hfirst l rfl, Bool.not_false,
              if_true, List.head?_cons, Option.some.injEq] at hhead
            rw [← hhead]

/-- **Where a number of significant tokens have ended**: with the lexemes that hold them. -/
theorem stop_le_of_place (pre ls : List Lexeme) {i : Nat} {t : Token}
    (hi : i < (significantKinds pre).length)
    (ht : (significant (place 0 (pre ++ ls)))[i]? = some t) :
    t.stop ≤ Utf8.size (pre.flatMap (·.text)) := by
  rw [← length_significant_place 0] at hi
  rw [place_append, significant_append, List.getElem?_append_left hi] at ht
  have hmem : t ∈ place 0 pre := (List.mem_filter.mp (List.mem_of_getElem? ht)).1
  obtain ⟨before, behind, hpre, hoffset⟩ := mem_place hmem
  rw [stop, hoffset, hpre, List.flatMap_append, List.flatMap_cons, Utf8.size_append,
    Utf8.size_append]
  omega

end Token

/-- A row of a syntax tree and a stretch of its outline are of the same node. -/
structure Tree.Row.Matches (ts : List Token) (r : Row) (s : Stretch) : Prop where
  text : r.text = none
  kind : r.kind = s.kind
  start : r.start = Token.offsetAt ts s.first
  stop : r.stop ≤ Token.offsetAt ts s.stop
  /-- The significant tokens before what stands behind the node have ended with it. -/
  ended : ∀ i t, i < s.stop → (Token.significant ts)[i]? = some t → t.stop ≤ r.stop

/-- Rows and stretches of the same nodes. -/
structure RowsMatch (ts : List Token) (rs : List Row) (ss : List Stretch) : Prop where
  of_row : ∀ r ∈ rs, r.text = none → ∃ s ∈ ss, r.Matches ts s
  of_stretch : ∀ s ∈ ss, ∃ r ∈ rs, r.Matches ts s

namespace RowsMatch

variable {ts : List Token} {rs rs' : List Row} {ss ss' : List Stretch}

theorem nil : RowsMatch ts [] [] := ⟨by simp, by simp⟩

theorem append (h : RowsMatch ts rs ss) (h' : RowsMatch ts rs' ss') :
    RowsMatch ts (rs ++ rs') (ss ++ ss') where
  of_row := by
    intro r hr htext
    rcases List.mem_append.mp hr with hr | hr
    · obtain ⟨s, hs, hmatch⟩ := h.of_row r hr htext
      exact ⟨s, List.mem_append_left _ hs, hmatch⟩
    · obtain ⟨s, hs, hmatch⟩ := h'.of_row r hr htext
      exact ⟨s, List.mem_append_right _ hs, hmatch⟩
  of_stretch := by
    intro s hs
    rcases List.mem_append.mp hs with hs | hs
    · obtain ⟨r, hr, hmatch⟩ := h.of_stretch s hs
      exact ⟨r, List.mem_append_left _ hr, hmatch⟩
    · obtain ⟨r, hr, hmatch⟩ := h'.of_stretch s hs
      exact ⟨r, List.mem_append_right _ hr, hmatch⟩

theorem one {r : Row} {s : Stretch} (h : r.Matches ts s) : RowsMatch ts [r] [s] :=
  ⟨fun _ hr _ => ⟨s, List.mem_singleton_self s, List.mem_singleton.mp hr ▸ h⟩,
    fun _ hs => ⟨r, List.mem_singleton_self r, List.mem_singleton.mp hs ▸ h⟩⟩

/-- Tokens have no stretch. -/
theorem tokens (h : ∀ r ∈ rs, r.text ≠ none) : RowsMatch ts rs [] :=
  ⟨fun r hr hnone => absurd hnone (h r hr), by simp⟩

end RowsMatch

variable {α : Type} {kindOf : α → Kind}

theorem significantKinds_append (ls ls' : List Lexeme) :
    significantKinds (ls ++ ls') = significantKinds ls ++ significantKinds ls' := by
  simp [significantKinds]

/-- The significant lexemes of what is woven are the leaves that it was woven from. -/
theorem Weaves.significantKinds_eq {os : List (Tree α)} {ls rest : List Lexeme}
    {ts : List SyntaxTree} (h : Weaves kindOf os ls ts rest) :
    significantKinds (leavesOfList ts) = (leavesOfList os).map kindOf := by
  induction h with
  | nil ls => simp [significantKinds]
  | trivia ht _ _ ih => simpa [significantKinds, ht] using ih
  | leaf hl hk _ ih => simpa [significantKinds, hl, hk] using ih
  | node _ _ _ ih₁ ih₂ =>
      rw [leavesOfList_cons, leavesOfList_cons, significantKinds_append, leaves_node, leaves_node,
        ih₁, ih₂, List.map_append]

/-- **Rows and stretches tell the same nodes.** -/
theorem Weaves.rows_match {os : List (Tree α)} {ls rest : List Lexeme} {ts : List SyntaxTree}
    (h : Weaves kindOf os ls ts rest) (pre : List Lexeme) (depth : Nat) :
    RowsMatch (Token.place 0 (pre ++ ls)) (rowsOfList depth (Utf8.size (pre.flatMap (·.text))) ts)
      (stretchesOfList (significantKinds pre).length os) := by
  -- on the weaving, with `pre` for all that was woven so far
  induction h generalizing pre depth with
  | nil ls =>
      rw [rowsOfList_nil, stretchesOfList_nil]
      exact .nil
  | @trivia os l ls rest ts ht _ _ ih =>
      have ih := ih (pre ++ [l]) depth
      rw [List.append_assoc, significantKinds_append, List.flatMap_append, Utf8.size_append] at ih
      have hnil : significantKinds [l] = [] := by simp [significantKinds, ht]
      rw [hnil, List.append_nil] at ih
      rw [rowsOfList_cons, rows, size_leaf, ← List.nil_append (stretchesOfList _ _)]
      refine .append (.tokens (by simp)) ?_
      simpa using ih
  | @leaf os a l ls rest ts hl _ _ ih =>
      have ih := ih (pre ++ [l]) depth
      rw [List.append_assoc, significantKinds_append, List.flatMap_append, Utf8.size_append,
        List.length_append] at ih
      have hone : (significantKinds [l]).length = 1 := by simp [significantKinds, hl]
      rw [hone] at ih
      rw [rowsOfList_cons, rows, size_leaf, stretchesOfList_cons, stretches_leaf, leaves_leaf]
      refine .append (.tokens (by simp)) ?_
      simpa using ih
  | @node k os os' ls ls₁ rest us ts hs inner w ih₁ ih₂ =>
      -- the row starts with its first significant token and ends no later than the next one starts
      have hls := inner.leaves_eq
      have hfirst := (Token.offsetAt_place pre ls).2 hs
      have hstop := (Token.offsetAt_place (pre ++ leavesOfList us) ls₁).1
      have hended := fun i t => @Token.stop_le_of_place (pre ++ leavesOfList us) ls₁ i t
      have ih₁ := ih₁ pre (depth + 1)
      have ih₂ := ih₂ (pre ++ leavesOfList us) depth
      rw [List.append_assoc, ← hls, significantKinds_append, List.flatMap_append,
        Utf8.size_append, List.length_append, inner.significantKinds_eq, List.length_map,
        ← sizeOfList_eq] at ih₂ hstop hended
      rw [rowsOfList_cons, rows_node, stretchesOfList_cons, stretches_node, size_node, leaves_node]
      refine .append (.append (.one ?_) ih₁) ih₂
      exact ⟨rfl, rfl, hfirst.symm, hstop, hended⟩

end SqlCaret
