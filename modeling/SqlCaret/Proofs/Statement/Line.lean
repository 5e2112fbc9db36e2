import SqlCaret.Proofs.Parse.Split
import SqlCaret.Proofs.Statement.Moved
import SqlCaret.Proofs.Text.Joined

/-!
# Statement — both sides of a separator line

What a reader of statements may rely on around a separator line.

* What stands in front never changes what is made of the text behind it: the batches and errors are
  those of that text alone, only further down (`ParsedScript.behind_line`).
* What stands behind does not change what is made of the text in front (`ParsedScript.front_line`),
  unless a `WITH` stands right in front of the line.  There it does
  (`ParsedScript.not_front_line_with`).
-/

namespace SqlCaret

open SqlCaret.Tree
open SqlCaret.Printed (goLine)

/-- The error `k` lines further down. -/
def ScriptError.down (k : Nat) (e : ScriptError) : ScriptError := ⟨e.message, e.point.down k⟩

/-- A simple statement is nothing more than its span. -/
theorem Statement.eq_simple_of_kind {s : Statement} (h : s.kind = .simple) :
    s = .simple s.span := by
  cases s with
  | simple => rfl
  | _ => cases h

namespace ParsedScript

section
variable {a : List Char}

theorem lastLine_goLine (a : List Char) : Line.lastLine (a ++ goLine) = [] := by
  rw [show a ++ goLine = a ++ ['\n', 'G', 'O'] ++ ['\n'] by simp [goLine], Line.lastLine_concat,
    if_pos rfl]

theorem count_goLine (a : List Char) : (a ++ goLine).count '\n' = a.count '\n' + 2 := by
  rw [List.count_append]
  rfl

/-- The lines behind the separator line are those of the bytes behind it. -/
theorem lt_line_iff (a b : List Char) (o : Nat) :
    a.count '\n' + 2 < ((LineIndex.ofText (a ++ goLine ++ b)).point o).line ↔
      Utf8.size (a ++ goLine) ≤ o := by
  rw [← count_goLine]
  constructor
  · intro hlt
    refine Nat.le_of_not_lt fun ho => ?_
    have hle : ((LineIndex.ofText (a ++ goLine)).point o).line ≤ (a ++ goLine).count '\n' := by
      have hline := LineIndex.line_le (a ++ ['\n', 'G', 'O']) (o := o)
      rw [List.append_assoc] at hline
      exact hline ho
    rw [LineIndex.point_append (Nat.le_of_lt ho)] at hlt
    omega
  · intro ho
    obtain ⟨o', rfl⟩ := Nat.exists_eq_add_of_le ho
    have hpos := LineIndex.line_pos b o'
    rw [LineIndex.point_behind (lastLine_goLine a), Point.down]
    show _ < _ + _
    omega

/-- The statements that the trees in front of the line become, with the points of the text that
ends with the line. -/
def frontBatches (a : List Char) (ts : List SyntaxTree) (rest : List Lexeme) : List Batch :=
  (Script.batchesOf (.ofText (a ++ goLine)) 0 (Parse.head ts rest)).map
    (·.map (Statement.mapPoints id))

theorem length_frontBatches (a : List Char) {front : List Outline} {ls behind : List Lexeme}
    {ts : List SyntaxTree} (hw : Weaves Mark.kind front ls ts behind) (rest : List Lexeme) :
    (frontBatches a ts rest).length = (nodeKinds front).count .batch := by
  rw [frontBatches, List.length_map, Parse.length_batchesOf, Parse.head, nodeKinds_append,
    nodeKinds_append, (allLeaves_map_leaf rest).nodeKinds_eq, hw.nodeKinds_eq]
  simp

/-- The errors in front of the end of the line, likewise. -/
def frontErrors (a : List Char) (ps : List Problem) : List ScriptError :=
  (SyntaxError.sort (Parse.frontErrors a ps)).map fun e =>
    ⟨e.message, (LineIndex.ofText (a ++ goLine)).point e.offset⟩

variable {b : List Char} {ls : List Lexeme} {l : Lexeme} (hcut : Cut a ls l)
  {front : List Outline} {ps : List Problem} (h : Parse.Front a b front ps)
include hcut h

/-- **The batches on both sides.** -/
theorem batches_eq {ts : List SyntaxTree} {rest : List Lexeme}
    (hw : Weaves Mark.kind front (ls ++ [l]) ts rest)
    (hrest : ∀ x ∈ rest, x.kind.isTrivia = true) :
    (ofText (a ++ goLine ++ b) defaultSeparator).script.batches =
      frontBatches a ts rest ++ (ofText b defaultSeparator).script.batches.map
        (·.map (Statement.mapPoints (.down (a.count '\n' + 2)))) := by
  -- in front of the cut the points stay, and behind it they are so many lines down
  have hsize := Parse.sizeOfList_head hcut hw
  have hfront : Statement.Carries (.ofText (a ++ goLine)) (.ofText (a ++ goLine ++ b)) id 0
      (Utf8.size (a ++ goLine)) := by
    intro o ho
    rw [Nat.zero_add, LineIndex.point_append ho]
    rfl
  have hbehind : ∀ stop, Statement.Carries (.ofText b) (.ofText (a ++ goLine ++ b))
      (.down (a.count '\n' + 2)) (Utf8.size (a ++ goLine)) stop := by
    intro stop o _
    rw [LineIndex.point_behind (lastLine_goLine a), count_goLine]
  have htree : (Parse.ofText (a ++ goLine ++ b) defaultSeparator).tree.children =
      Parse.head ts rest ++ (Parse.ofText b defaultSeparator).tree.children := by
    rw [h.tree_eq hcut hw hrest]
    rfl
  have hmoved := Statement.batchesOf_moved hfront 0 (Parse.head ts rest) (by omega)
  have hmoved' := Statement.batchesOf_moved (hbehind _) 0
    (Parse.ofText b defaultSeparator).tree.children (Nat.le_refl _)
  calc (ofText (a ++ goLine ++ b) defaultSeparator).script.batches
      = Script.batchesOf (.ofText (a ++ goLine ++ b)) 0
          (Parse.head ts rest ++ (Parse.ofText b defaultSeparator).tree.children) :=
        congrArg (Script.batchesOf (.ofText (a ++ goLine ++ b)) 0) htree
    _ = Script.batchesOf (.ofText (a ++ goLine ++ b)) (0 + 0) (Parse.head ts rest) ++
          Script.batchesOf (.ofText (a ++ goLine ++ b)) (Utf8.size (a ++ goLine) + 0)
            (Parse.ofText b defaultSeparator).tree.children := by
        rw [Statement.batchesOf_append, hsize, Nat.zero_add]
        rfl
    _ = _ := by
        rw [hmoved, hmoved']
        rfl

/-- **The errors in front of the end of the line.** -/
theorem errors_front :
    (ofText (a ++ goLine ++ b) defaultSeparator).errors.filter
        (·.point.line ≤ a.count '\n' + 2) = frontErrors a ps := by
  have hpick : ∀ e : SyntaxError,
      decide (((LineIndex.ofText (a ++ goLine ++ b)).point e.offset).line ≤ a.count '\n' + 2) =
        decide (e.offset < Utf8.size (a ++ goLine)) := by
    intro e
    rw [decide_eq_decide, ← Nat.not_lt, lt_line_iff, Nat.not_le]
  have hpoints : ∀ e ∈ SyntaxError.sort (Parse.frontErrors a ps),
      (LineIndex.ofText (a ++ goLine ++ b)).point e.offset =
        (LineIndex.ofText (a ++ goLine)).point e.offset := by
    intro e he
    have hlt := h.offset_lt e ((SyntaxError.perm_sort _).mem_iff.mp he)
    rw [LineIndex.point_append (Nat.le_of_lt hlt)]
  rw [ofText, List.filter_map]
  simp only [Function.comp_def, hpick, h.errors_front hcut]
  exact List.map_congr_left fun e he => by rw [hpoints e he]

/-- **The errors behind the line.** -/
theorem errors_behind :
    (ofText (a ++ goLine ++ b) defaultSeparator).errors.filter
        (a.count '\n' + 2 < ·.point.line) =
      (ofText b defaultSeparator).errors.map (.down (a.count '\n' + 2)) := by
  have hpick : ∀ e : SyntaxError,
      decide (a.count '\n' + 2 < ((LineIndex.ofText (a ++ goLine ++ b)).point e.offset).line) =
        decide (Utf8.size (a ++ goLine) ≤ e.offset) := by
    intro e
    rw [decide_eq_decide, lt_line_iff]
  rw [ofText, List.filter_map]
  simp only [Function.comp_def, hpick, h.errors_behind hcut]
  rw [ofText, List.map_map, List.map_map]
  refine List.map_congr_left fun e _ => ?_
  simp only [Function.comp_apply, SyntaxError.later, ScriptError.down]
  rw [Nat.add_comm, LineIndex.point_behind (lastLine_goLine a), count_goLine]
  rfl

end

/-- **What stands in front of a separator line never changes what is made of the text behind it.**
Unless the text in front ends inside a token, the last batches are those of the text behind, and
the errors behind the line are those of that text in the same order, all of it as many lines
further down as there are in front. -/
theorem behind_line (a b : List Char) (ha : ∀ l ∈ lexemes a, l.kind ∉ Kind.unterminated) :
    (ofText b defaultSeparator).script.batches.map
        (·.map (Statement.mapPoints (.down (a.count '\n' + 2)))) <:+
      (ofText (a ++ goLine ++ b) defaultSeparator).script.batches ∧
    (ofText (a ++ goLine ++ b) defaultSeparator).errors.filter
        (a.count '\n' + 2 < ·.point.line) =
      (ofText b defaultSeparator).errors.map (.down (a.count '\n' + 2)) := by
  obtain ⟨ls, l, hcut⟩ := exists_cut ha
  obtain ⟨front, ps, hfront, -⟩ := Parse.exists_front hcut b b fun _ => rfl
  obtain ⟨ts, rest, hw, hrest⟩ := hfront.exists_weaves hcut
  refine ⟨?_, errors_behind hcut hfront⟩
  rw [batches_eq hcut hfront hw hrest]
  exact List.suffix_append _ _

/-- A block and a parenthesis are open in front of the line, and a parenthesis is closed behind it
that is not open there. -/
theorem behind_line_block :
    (∀ l ∈ lexemes "BEGIN (".toList, l.kind ∉ Kind.unterminated) ∧
      [[.simple ⟨⟨3, 0⟩, ⟨3, 9⟩⟩]] <:+
        (ofText ("BEGIN (".toList ++ goLine ++ "PRINT 1 )".toList) defaultSeparator).script.batches ∧
      (ofText ("BEGIN (".toList ++ goLine ++ "PRINT 1 )".toList) defaultSeparator).errors.filter
        (2 < ·.point.line) = [⟨SyntaxFault.parenAlone.message, ⟨3, 8⟩⟩] := by
  have hclosed : ∀ l ∈ lexemes "BEGIN (".toList, l.kind ∉ Kind.unterminated := by decide
  obtain ⟨hbatches, herrors⟩ := behind_line "BEGIN (".toList "PRINT 1 )".toList hclosed
  have hcount : "BEGIN (".toList.count '\n' + 2 = 2 := by decide
  have hlast : (ofText "PRINT 1 )".toList defaultSeparator).script.batches.map
      (·.map (Statement.mapPoints (.down 2))) = [[.simple ⟨⟨3, 0⟩, ⟨3, 9⟩⟩]] := by
    have hshape : ((ofText "PRINT 1 )".toList defaultSeparator).script.batches.map
        (·.map (Statement.mapPoints (.down 2)))).map (·.map fun s => (s.kind, s.span)) =
          [[(.simple, ⟨⟨3, 0⟩, ⟨3, 9⟩⟩)]] := by decide +kernel
    obtain ⟨batch, hbatch, hone⟩ := List.map_eq_singleton_iff.mp hshape
    obtain ⟨s, hs, hsimple⟩ := List.map_eq_singleton_iff.mp hone
    obtain ⟨hkind, hspan⟩ := Prod.mk.inj hsimple
    rw [hbatch, hs, s.eq_simple_of_kind hkind, hspan]
  have herror : (ofText "PRINT 1 )".toList defaultSeparator).errors.map (ScriptError.down 2) =
      [⟨SyntaxFault.parenAlone.message, ⟨3, 8⟩⟩] := by decide +kernel
  rw [hcount, hlast] at hbatches
  rw [hcount, herror] at herrors
  exact ⟨hclosed, hbatches, herrors⟩

/-- **What stands behind a separator line does not change what is made of the text in front of
it**, unless the text in front ends inside a token, or it ends with `WITH` and only one of the texts
behind begins with `(` or `AS (`.  The batches in front are as many as there are in the text that
ends with the line, but for its last one, and the errors in front are those up to the line. -/
theorem front_line (a b b' : List Char) (ha : ∀ l ∈ lexemes a, l.kind ∉ Kind.unterminated)
    (hwith : Parse.EndsInWith a → Parse.opensCte b = Parse.opensCte b') :
    (ofText (a ++ goLine ++ b) defaultSeparator).script.batches.take
        ((ofText (a ++ goLine) defaultSeparator).script.batches.length - 1) =
      (ofText (a ++ goLine ++ b') defaultSeparator).script.batches.take
        ((ofText (a ++ goLine) defaultSeparator).script.batches.length - 1) ∧
    (ofText (a ++ goLine ++ b) defaultSeparator).errors.filter
        (·.point.line ≤ a.count '\n' + 2) =
      (ofText (a ++ goLine ++ b') defaultSeparator).errors.filter
        (·.point.line ≤ a.count '\n' + 2) := by
  obtain ⟨ls, l, hcut⟩ := exists_cut ha
  obtain ⟨front, ps, hfront, hfront'⟩ := Parse.exists_front hcut b b' hwith
  obtain ⟨ts, rest, hw, hrest⟩ := hfront.exists_weaves hcut
  have hlength := length_frontBatches a hw rest
  rw [hfront.count_batch hcut] at hlength
  constructor
  · rw [batches_eq hcut hfront hw hrest, batches_eq hcut hfront' hw hrest, ← hlength,
      List.take_left, List.take_left]
  · rw [errors_front hcut hfront, errors_front hcut hfront']

/-- A block is open in front of the line, and what closes it stands behind. -/
theorem front_line_block :
    (∀ l ∈ lexemes "BEGIN PRINT 1".toList, l.kind ∉ Kind.unterminated) ∧
      (Parse.EndsInWith "BEGIN PRINT 1".toList →
        Parse.opensCte "END".toList = Parse.opensCte "(".toList) ∧
      (ofText ("BEGIN PRINT 1".toList ++ goLine ++ "END".toList) defaultSeparator).script.batches.take
          1 =
        (ofText ("BEGIN PRINT 1".toList ++ goLine ++ "(".toList) defaultSeparator).script.batches.take
          1 := by
  have hclosed : ∀ l ∈ lexemes "BEGIN PRINT 1".toList, l.kind ∉ Kind.unterminated := by decide
  have hlast : (Parse.cursor defaultSeparator "BEGIN PRINT 1".toList).ahead.getLast? =
      some ⟨.number, none, false, false, false⟩ := by decide +kernel
  have hwith : Parse.EndsInWith "BEGIN PRINT 1".toList →
      Parse.opensCte "END".toList = Parse.opensCte "(".toList := by
    rintro ⟨m, hm, hwith⟩
    rw [hlast] at hm
    cases hm
    cases hwith
  have hone :
      (ofText ("BEGIN PRINT 1".toList ++ goLine) defaultSeparator).script.batches.length - 1 = 1 := by
    decide +kernel
  have h := (front_line "BEGIN PRINT 1".toList "END".toList "(".toList hclosed hwith).1
  rw [hone] at h
  exact ⟨hclosed, hwith, h⟩

/-- **`WITH` right in front of the line looks behind it**: with `(` there it takes the separator for
the name of a common table expression, and so begins a statement of its own. -/
theorem not_front_line_with :
    ¬ ∀ a b b' : List Char, (∀ l ∈ lexemes a, l.kind ∉ Kind.unterminated) →
      (ofText (a ++ goLine ++ b) defaultSeparator).script.batches.take
          ((ofText (a ++ goLine) defaultSeparator).script.batches.length - 1) =
        (ofText (a ++ goLine ++ b') defaultSeparator).script.batches.take
          ((ofText (a ++ goLine) defaultSeparator).script.batches.length - 1) := by
  intro h
  have hclosed : ∀ l ∈ lexemes "SELECT 1 WITH".toList, l.kind ∉ Kind.unterminated := by decide
  have hone :
      (ofText ("SELECT 1 WITH".toList ++ goLine) defaultSeparator).script.batches.length - 1 = 1 := by
    decide +kernel
  have htwo : ((ofText ("SELECT 1 WITH".toList ++ goLine ++ "(SELECT 2)".toList)
      defaultSeparator).script.batches.take 1).map List.length = [2] := by decide +kernel
  have hfirst : ((ofText ("SELECT 1 WITH".toList ++ goLine ++ "SELECT 2".toList)
      defaultSeparator).script.batches.take 1).map List.length = [1] := by decide +kernel
  have h := congrArg (List.map List.length)
    (h "SELECT 1 WITH".toList "(SELECT 2)".toList "SELECT 2".toList hclosed)
  rw [hone, htwo, hfirst] at h
  exact absurd h (by decide)

end ParsedScript

end SqlCaret
