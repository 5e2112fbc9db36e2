import SqlCaret.Proofs.Statement.OfTree

/-!
# Statement — moved

The statements of a syntax tree depend on where the tree stands only through the points of its
bytes.  If one line index carries the points of another, the statements it makes of the same tree
are the same with their points moved (`ofTrees_moved`), and so are batches (`batchesOf_moved`).
-/

namespace SqlCaret

open SqlCaret.Tree

/-- The span with both ends moved. -/
def Span.mapPoints (f : Point → Point) (s : Span) : Span := ⟨f s.start, f s.stop⟩

namespace Statement

mutual

/-- The statement with all its points moved by `f`. -/
def mapPoints (f : Point → Point) : Statement → Statement
  | simple s => simple (s.mapPoints f)
  | block s cs => block (s.mapPoints f) (mapPointsOfList f cs)
  | conditional s t e =>
    conditional (s.mapPoints f) (mapPointsOfBranch f t) (mapPointsOfBranch f e)
  | loop s b => loop (s.mapPoints f) (mapPoints f b)

/-- The statements of a row, each with its points moved. -/
def mapPointsOfList (f : Point → Point) : List Statement → List Statement
  | [] => []
  | s :: ss => mapPoints f s :: mapPointsOfList f ss

/-- A branch with its points moved; a missing one stays missing. -/
def mapPointsOfBranch (f : Point → Point) : Option Statement → Option Statement
  | none => none
  | some s => some (mapPoints f s)

end

/-- Moving the points of a row is moving those of each statement. -/
theorem mapPointsOfList_eq (f : Point → Point) (ss : List Statement) :
    mapPointsOfList f ss = ss.map (mapPoints f) := by
  induction ss with
  | nil => rfl
  | cons s ss ih => rw [mapPointsOfList, ih, List.map_cons]

theorem mapPointsOfBranch_eq (f : Point → Point) (b : Option Statement) :
    mapPointsOfBranch f b = b.map (mapPoints f) := by
  cases b <;> rfl

/-- The points of `ix'` from byte `n` on are those of `ix` up to byte `stop`, moved by `f`. -/
def Carries (ix ix' : LineIndex) (f : Point → Point) (n stop : Nat) : Prop :=
  ∀ o, o ≤ stop → ix'.point (n + o) = f (ix.point o)

section
variable {ix ix' : LineIndex} {f : Point → Point} {n stop : Nat}

/-- A node's span moves with the points of its two ends. -/
theorem spanOf_moved (h : Carries ix ix' f n stop) {start size : Nat}
    (hle : start + size ≤ stop) :
    spanOf ix' (n + start) size = (spanOf ix start size).mapPoints f := by
  rw [spanOf, spanOf, Span.mapPoints, Nat.add_assoc, h _ (by omega), h _ hle]

mutual

/-- The statement of a node that is found `n` bytes further on is the same one, moved. -/
theorem ofTree_moved (h : Carries ix ix' f n stop) (start : Nat) : ∀ t : SyntaxTree,
    start + size t ≤ stop → ofTree ix' (n + start) t = mapPoints f (ofTree ix start t)
  | .leaf l, hle => by
      rw [size_leaf] at hle
      rw [ofTree, ofTree, mapPoints, spanOf_moved h hle]
  | .node k ts, hle => by
      rw [size_node] at hle
      have hspan := spanOf_moved h hle
      cases k with
      | block | tryCatch =>
          simp only [ofTree, mapPoints, mapPointsOfList_eq, hspan, ofTrees_moved h start ts hle]
      | ifStatement =>
          simp only [ofTree, mapPoints, mapPointsOfBranch_eq, hspan, first?_moved h start ts hle,
            elseBranch?_moved h start ts hle]
      | whileStatement =>
          simp only [ofTree, first?_moved h start ts hle]
          cases first? ix start ts with
          | none => simp only [Option.map_none, mapPoints, hspan]
          | some body => simp only [Option.map_some, mapPoints, hspan]
      | _ => simp only [ofTree, mapPoints, hspan]

/-- Moving keeps how many statements a row has and in which order. -/
theorem ofTrees_moved (h : Carries ix ix' f n stop) (start : Nat) : ∀ ts : List SyntaxTree,
    start + sizeOfList ts ≤ stop →
      ofTrees ix' (n + start) ts = (ofTrees ix start ts).map (mapPoints f)
  | [], _ => by rw [ofTrees, ofTrees, List.map_nil]
  | .leaf l :: ts, hle => by
      rw [sizeOfList_cons, size_leaf, ← Nat.add_assoc] at hle
      rw [ofTrees, ofTrees, Nat.add_assoc, ofTrees_moved h _ ts hle]
  | .node k cs :: ts, hle => by
      rw [sizeOfList_cons, size_node, ← Nat.add_assoc] at hle
      have hinner : start + sizeOfList cs ≤ stop := by omega
      have hnode := ofTree_moved h start (.node k cs) (by rw [size_node]; exact hinner)
      rw [ofTrees, ofTrees, Nat.add_assoc, ofTrees_moved h _ ts hle, hnode,
        ofTrees_moved h start cs hinner, List.map_append]
      congr 1
      split
      · rfl
      split
      · rfl
      · rfl

/-- A branch is found at the same place of its row. -/
theorem first?_moved (h : Carries ix ix' f n stop) (start : Nat) : ∀ ts : List SyntaxTree,
    start + sizeOfList ts ≤ stop →
      first? ix' (n + start) ts = (first? ix start ts).map (mapPoints f)
  | [], _ => by rw [first?, first?, Option.map_none]
  | .leaf l :: ts, hle => by
      rw [sizeOfList_cons, size_leaf, ← Nat.add_assoc] at hle
      rw [first?, first?, Nat.add_assoc, first?_moved h _ ts hle]
  | .node k cs :: ts, hle => by
      rw [sizeOfList_cons, size_node, ← Nat.add_assoc] at hle
      have hinner : start + sizeOfList cs ≤ stop := by omega
      have hnode := ofTree_moved h start (.node k cs) (by rw [size_node]; exact hinner)
      rw [first?, first?, Nat.add_assoc, first?_moved h _ ts hle, hnode]
      split
      · rfl
      · rfl

/-- A branch behind `ELSE` is found at the same place. -/
theorem elseBranch?_moved (h : Carries ix ix' f n stop) (start : Nat) : ∀ ts : List SyntaxTree,
    start + sizeOfList ts ≤ stop →
      elseBranch? ix' (n + start) ts = (elseBranch? ix start ts).map (mapPoints f)
  | [], _ => by rw [elseBranch?, elseBranch?, Option.map_none]
  | .leaf l :: ts, hle => by
      rw [sizeOfList_cons, size_leaf, ← Nat.add_assoc] at hle
      rw [elseBranch?, elseBranch?, Nat.add_assoc, elseBranch?_moved h _ ts hle]
  | .node k cs :: ts, hle => by
      rw [sizeOfList_cons, size_node, ← Nat.add_assoc] at hle
      have hinner : start + sizeOfList cs ≤ stop := by omega
      rw [elseBranch?, elseBranch?, Nat.add_assoc, elseBranch?_moved h _ ts hle,
        first?_moved h start cs hinner]
      split
      · rfl
      · rfl

end

/-- **Batches only depend on the points of their bytes.** -/
theorem batchesOf_moved (h : Carries ix ix' f n stop) (start : Nat) (ts : List SyntaxTree)
    (hle : start + sizeOfList ts ≤ stop) :
    Script.batchesOf ix' (n + start) ts =
      (Script.batchesOf ix start ts).map (·.map (mapPoints f)) := by
  induction ts generalizing start with
  | nil => rfl
  | cons t ts ih =>
      rw [sizeOfList_cons, ← Nat.add_assoc] at hle
      have hrest := ih (start + size t) hle
      have hinner : start + size t ≤ stop := by omega
      simp only [Script.batchesOf, Nat.add_assoc, hrest]
      split
      · rw [ofTrees_moved h start _ (by rwa [size_node] at hinner), List.map_cons]
      · rfl

end

end Statement

end SqlCaret
