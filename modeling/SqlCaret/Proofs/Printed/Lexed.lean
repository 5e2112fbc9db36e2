import SqlCaret.Proofs.Printed.Layout
import SqlCaret.Proofs.Syntax.Cut

/-!
# Printed — lexed

The lexemes of what is printed are the leaves of its tree (`lexemes_tree`, `lexemes_row`), with
anything behind it that goes on with no word.  White space is cut off from what stands around
it (`lexemes_gap`) and makes blank lexemes only, none of them unterminated.
-/

namespace SqlCaret

open SqlCaret.Tree

namespace Lexeme

/-- A text that goes on with no word and no number. -/
def EndsWord (rest : List Char) : Prop :=
  ∀ c ∈ rest.head?, isWordPart c = false ∧ c ≠ '.'

/-- A text that goes on with no space and no line end. -/
def EndsBlank (rest : List Char) : Prop :=
  ∀ c ∈ rest.head?, isSpace c = false ∧ c ≠ '\n'

/-- A run goes to the end if every character belongs to it. -/
theorem run_eq_length {p : Char → Bool} {cs : List Char} (h : ∀ c ∈ cs, p c = true) :
    run p cs = cs.length := by
  rw [run, ← List.append_nil cs, List.takeWhile_append_of_pos h]
  simp

/-- A token that takes the characters `cs` after its first. -/
theorem lexemes_of_extent {c : Char} {cs rest : List Char} {k : Kind}
    (h : extent c (cs ++ rest) = (k, cs.length)) :
    lexemes (c :: (cs ++ rest)) = ⟨k, c :: cs⟩ :: lexemes rest := by
  rw [lexemes_cons, h]
  simp

/-- No run begins in front of a character that does not belong to it. -/
theorem run_eq_zero {p : Char → Bool} {cs : List Char} (h : ∀ c ∈ cs.head?, p c = false) :
    run p cs = 0 := @run_append p [] cs h

/-- The letters that the printed words begin with. -/
theorem extent_letter {c : Char} (hc : c ∈ ['P', 'B', 'E', 'T', 'C', 'I', 'W', 'G'])
    (cs : List Char) : extent c cs = (.word, run isWordPart cs) := by
  simp only [List.mem_cons, List.not_mem_nil, or_false] at hc
  rcases hc with rfl | rfl | rfl | rfl | rfl | rfl | rfl | rfl <;>
    simp [extent, isSpace, isWordStart]

/-- The printed keywords and the separator are words; none of their first letters begins anything
else. -/
theorem lexemes_letters {c : Char} {cs rest : List Char}
    (hc : c ∈ ['P', 'B', 'E', 'T', 'C', 'I', 'W', 'G']) (hcs : cs.all isWordPart = true)
    (h : EndsWord rest) : lexemes (c :: (cs ++ rest)) = ⟨.word, c :: cs⟩ :: lexemes rest := by
  refine lexemes_of_extent ?_
  rw [extent_letter hc, run_append fun c hc => (h c hc).1,
    run_eq_length (List.all_eq_true.mp hcs)]

/-- The printed number is one digit, if no word goes on behind it. -/
theorem number_one {rest : List Char} (h : EndsWord rest) : number '1' rest = 0 := by
  have hdigits : run Char.isDigit rest = 0 := by
    refine run_eq_zero fun c hc => ?_
    have hpart := (h c hc).1
    simp only [isWordPart, Bool.or_eq_false_iff] at hpart
    exact hpart.1.2
  have hfraction : fraction rest = 0 := by
    cases rest with
    | nil => rfl
    | cons c cs =>
        -- what ends a word is neither a dot nor the letter of an exponent
        obtain ⟨hpart, hdot⟩ := h c rfl
        have he : ¬ (c = 'e' ∨ c = 'E') := by
          rintro (rfl | rfl) <;> exact absurd hpart (by decide)
        have hstart : fraction (c :: cs) = exponent (c :: cs) := by
          rw [fraction]
          intro _ hdot'
          exact hdot (List.cons.inj hdot').1
        rw [hstart, exponent, if_neg he]
  simp [number, hdigits, hfraction]

end Lexeme

namespace Printed

open Lexeme

/-- **A word is one lexeme.** -/
theorem lexemes_word (w : Word) {rest : List Char} (h : EndsWord rest) :
    lexemes (w.text ++ rest) = w.lexeme :: lexemes rest := by
  cases w with
  | PRINT => exact @lexemes_letters 'P' ['R', 'I', 'N', 'T'] rest (by decide) rfl h
  | BEGIN => exact @lexemes_letters 'B' ['E', 'G', 'I', 'N'] rest (by decide) rfl h
  | END => exact @lexemes_letters 'E' ['N', 'D'] rest (by decide) rfl h
  | TRY => exact @lexemes_letters 'T' ['R', 'Y'] rest (by decide) rfl h
  | CATCH => exact @lexemes_letters 'C' ['A', 'T', 'C', 'H'] rest (by decide) rfl h
  | IF => exact @lexemes_letters 'I' ['F'] rest (by decide) rfl h
  | WHILE => exact @lexemes_letters 'W' ['H', 'I', 'L', 'E'] rest (by decide) rfl h
  | ELSE => exact @lexemes_letters 'E' ['L', 'S', 'E'] rest (by decide) rfl h
  | one =>
      refine @lexemes_of_extent '1' [] rest .number ?_
      simp [extent, isSpace, number_one h]
  | equals =>
      refine @lexemes_of_extent '=' [] rest .operator ?_
      simp [extent, isSpace, isWordStart, isOperator]
  | semicolon =>
      refine @lexemes_of_extent ';' [] rest .semicolon ?_
      simp [extent, isSpace, isWordStart]

/-! ### White space -/

/-- The kinds of white space and closed comments. -/
def blankKinds : List Kind := [.whitespace, .newline, .blockComment]

/-- A run of spaces ends in front of blank characters again. -/
theorem IsBlank.dropWhile {cs : List Char} (h : IsBlank cs) :
    IsBlank (cs.dropWhile isSpace) := by
  induction h with
  | nil => exact .nil
  | space hc _ ih => rwa [List.dropWhile_cons_of_pos hc]
  | @line c cs hc h _ =>
      have hspace : isSpace c = false := by
        simp only [isLineEnd, Bool.or_eq_true, beq_iff_eq] at hc
        rcases hc with rfl | rfl <;> rfl
      rw [List.dropWhile_cons_of_neg (by simp [hspace])]
      exact .line hc h
  | comment hb h _ =>
      rw [List.dropWhile_cons_of_neg (by decide)]
      exact .comment hb h

theorem IsBlank.tail {cs : List Char} (h : IsBlank ('\n' :: cs)) : IsBlank cs := by
  cases h with
  | space _ h => exact h
  | line _ h => exact h

/-- Blank characters are cut off from the text behind them and make blank lexemes. -/
def CutOff (rest cs : List Char) : Prop :=
  lexemes (cs ++ rest) = lexemes cs ++ lexemes rest ∧ ∀ l ∈ lexemes cs, l.kind ∈ blankKinds

/-- A blank token that is the same with the text behind and without. -/
theorem CutOff.cons {c : Char} {cs rest : List Char} {k : Kind} {n : Nat}
    (h : extent c (cs ++ rest) = (k, n)) (h' : extent c cs = (k, n)) (hk : k ∈ blankKinds)
    (hn : n ≤ cs.length) (ih : CutOff rest (cs.drop n)) : CutOff rest (c :: cs) := by
  obtain ⟨hcut, hkinds⟩ := ih
  constructor
  · rw [List.cons_append, lexemes_cons, lexemes_cons, h, h']
    simp only [List.take_append_of_le_length hn, List.drop_append_of_le_length hn, hcut,
      List.cons_append]
  · rw [lexemes_cons, h']
    intro l hl
    rcases List.mem_cons.mp hl with rfl | hl
    · exact hk
    · exact hkinds l hl

/-- **White space is cut off from what stands behind it.** -/
theorem cutOff_blank {rest : List Char} (hrest : EndsBlank rest) (cs : List Char)
    (h : IsBlank cs) : CutOff rest cs := by
  cases h with
  | nil => exact ⟨rfl, by simp [lexemes, scan]⟩
  | @space c cs hc h =>
      have he : ∀ cs', extent c cs' = (.whitespace, run isSpace cs') := fun cs' => by
        simp [extent, hc]
      have hn : run isSpace cs ≤ cs.length := (List.takeWhile_prefix isSpace).length_le
      refine .cons ?_ (he cs) (by decide) hn (cutOff_blank hrest _ ?_)
      · rw [he, run_append fun c hc => (hrest c hc).1]
      · rw [drop_run]
        exact h.dropWhile
  | @line c cs hc h =>
      simp only [isLineEnd, Bool.or_eq_true, beq_iff_eq] at hc
      rcases hc with rfl | rfl
      · have he : ∀ cs', extent '\n' cs' = (.newline, 0) := fun cs' => by simp [extent, isSpace]
        exact .cons (he _) (he cs) (by decide) (Nat.zero_le _) (cutOff_blank hrest cs h)
      · have he : ∀ cs', extent '\r' cs' =
            (.newline, if cs'.head? = some '\n' then 1 else 0) := fun cs' => by
          simp [extent, isSpace]
        -- a line feed behind it is part of the same token
        by_cases hnext : cs.head? = some '\n'
        · obtain ⟨cs', hcs⟩ := List.head?_eq_some_iff.mp hnext
          have hlt : cs'.length < cs.length := by simp [hcs]
          have ih := cutOff_blank hrest cs' (hcs ▸ h).tail
          subst hcs
          exact .cons (k := .newline) (n := 1) (he _) (he _) (by decide) (by simp) ih
        · have hnext' : (cs ++ rest).head? ≠ some '\n' := by
            cases cs with
            | nil => exact fun hn => (hrest '\n' hn).2 rfl
            | cons c cs => exact hnext
          refine .cons (k := .newline) (n := 0) ?_ ?_ (by decide) (Nat.zero_le _)
            (cutOff_blank hrest cs h)
          · rw [he, if_neg hnext']
          · rw [he, if_neg hnext]
  | @comment body cs hb h =>
      have he : ∀ rest, extent '/' ('*' :: (body ++ rest)) = (.blockComment, 1 + body.length) := by
        intro rest
        have hclosed : (Delimited.comment 1 body).closed = true := by rw [hb]
        simp [extent, isSpace, Delimited.comment_append hclosed, hb]
      have hdrop : ('*' :: (body ++ cs)).drop (1 + body.length) = cs := by
        rw [Nat.add_comm, List.drop_succ_cons, List.drop_left]
      have ih := cutOff_blank hrest cs h
      refine .cons (n := 1 + body.length) ?_ (he cs) (by decide) ?_ (by rwa [hdrop])
      · rw [List.cons_append, List.append_assoc]
        exact he (cs ++ rest)
      · simp only [List.length_cons, List.length_append]
        omega
termination_by cs.length
decreasing_by
  all_goals simp
  all_goals omega

/-- **White space between words becomes lexemes of its own.** -/
theorem lexemes_gap (b : Blank) {rest : List Char} (h : EndsBlank rest) :
    lexemes (b.text ++ rest) = leavesOfList b.leaves ++ lexemes rest := by
  rw [Blank.leaves, leavesOfList_map_leaf]
  exact (cutOff_blank h b.text b.isBlank).1

/-- The leaves of white space are blank. -/
theorem kind_of_mem_blank (b : Blank) :
    ∀ l ∈ leavesOfList b.leaves, l.kind ∈ blankKinds := by
  rw [Blank.leaves, leavesOfList_map_leaf]
  have hnil : EndsBlank [] := by simp [EndsBlank]
  exact (cutOff_blank hnil b.text b.isBlank).2

/-! ### What may stand behind -/

/-- No printed word begins with white space. -/
theorem endsBlank_word (w : Word) (rest : List Char) : EndsBlank (w.text ++ rest) := by
  cases w <;> intro c hc <;> cases hc <;> exact ⟨rfl, by decide⟩

theorem endsWord_nil : EndsWord [] := by
  intro c hc
  cases hc

/-- A word ends in front of white space, and of nothing if there is no white space. -/
theorem endsWord_blank {cs : List Char} (h : IsBlank cs) {rest : List Char}
    (hrest : EndsWord rest) : EndsWord (cs ++ rest) := by
  have hspace : ∀ c, isSpace c = true ∨ isLineEnd c = true →
      isWordPart c = false ∧ c ≠ '.' := by
    intro c hc
    simp only [isSpace, isLineEnd, Bool.or_eq_true, beq_iff_eq] at hc
    rcases hc with (((rfl | rfl) | rfl) | rfl) | rfl | rfl <;> decide
  cases h with
  | nil => exact hrest
  | space hc _ =>
      rintro c hmem
      cases hmem
      exact hspace _ (.inl hc)
  | line hc _ =>
      rintro c hmem
      cases hmem
      exact hspace _ (.inr hc)
  | comment _ _ =>
      rintro c hmem
      cases hmem
      decide

/-- White space that is not missing ends a word by itself. -/
theorem endsWord_gap (g : Gap) (rest : List Char) : EndsWord (g.text ++ rest) := by
  obtain ⟨⟨text, hblank⟩, hne⟩ := g
  cases text with
  | nil => exact absurd rfl hne
  | cons c cs =>
      have h := endsWord_blank hblank endsWord_nil
      exact fun d hd => h d (by simpa using hd)

/-- A word ends in front of a semicolon with white space or without. -/
theorem endsWord_semicolon (b : Blank) (rest : List Char) :
    EndsWord (b.text ++ (Word.semicolon.text ++ rest)) := by
  refine endsWord_blank b.isBlank fun c hc => ?_
  cases hc
  decide

/-- Every statement begins with a word. -/
theorem endsBlank_text (p : Printed) (rest : List Char) : EndsBlank (p.text ++ rest) := by
  cases p with
  | simple gap semicolon => cases semicolon <;> exact endsBlank_word .PRINT _
  | block => exact endsBlank_word .BEGIN _
  | tryCatch tried => cases tried; exact endsBlank_word .BEGIN _
  | ifThen => exact endsBlank_word .IF _
  | ifElse => exact endsBlank_word .IF _
  | loop => exact endsBlank_word .WHILE _

theorem endsBlank_section (w : Word) (s : Section) (rest : List Char) :
    EndsBlank (s.text w ++ rest) := by
  cases s
  exact endsBlank_word .BEGIN _

/-- A condition begins with white space, which a word in front of it does not go on with. -/
theorem endsWord_condition (c : Condition) (rest : List Char) : EndsWord (c.text ++ rest) := by
  rw [Condition.text, List.append_assoc]
  exact endsWord_gap c.before _

/-- A row begins with white space; an empty one leaves what stands behind it. -/
theorem endsWord_row (r : Row) {rest : List Char} (h : EndsWord rest) :
    EndsWord (r.text ++ rest) := by
  cases r with
  | nil => exact h
  | cons gap first others =>
      rw [Row.text, List.append_assoc]
      exact endsWord_gap gap _

/-! ### Statements -/

@[simp] theorem leaves_leaf_word (w : Word) : leaves w.leaf = [w.lexeme] := by
  rw [Word.leaf, leaves_leaf]

/-- A condition is lexed as the leaves of its trees. -/
theorem lexemes_condition (c : Condition) {rest : List Char} (h : EndsWord rest) :
    lexemes (c.text ++ rest) = leavesOfList c.trees ++ lexemes rest := by
  simp only [Condition.text, Condition.trees, List.append_assoc]
  rw [lexemes_gap _ (endsBlank_word _ _), lexemes_word _ (endsWord_gap _ _),
    lexemes_gap _ (endsBlank_word _ _), lexemes_word _ (endsWord_gap _ _),
    lexemes_gap _ (endsBlank_word _ _), lexemes_word _ h]
  simp

mutual

/-- **The lexemes of a printed statement are the leaves of its tree.** -/
theorem lexemes_tree : ∀ (p : Printed) {rest : List Char}, EndsWord rest →
    lexemes (p.text ++ rest) = leaves p.tree ++ lexemes rest
  | simple gap none, rest, h => by
      -- from the left, each part is cut off by what the part behind it begins with
      simp only [text, tree, List.append_assoc]
      rw [lexemes_word _ (endsWord_gap _ _), lexemes_gap _ (endsBlank_word _ _),
        lexemes_word _ h]
      simp
  | simple gap (some blank), rest, h => by
      simp only [text, tree, List.append_assoc]
      rw [lexemes_word _ (endsWord_gap _ _), lexemes_gap _ (endsBlank_word _ _),
        lexemes_word _ (endsWord_semicolon _ _), lexemes_gap _ (endsBlank_word _ _),
        lexemes_word _ h]
      simp
  | block inner last, rest, h => by
      simp only [text, tree, List.append_assoc]
      rw [lexemes_word _ (endsWord_row _ (endsWord_gap _ _)),
        lexemes_row inner (endsWord_gap _ _), lexemes_gap _ (endsBlank_word _ _),
        lexemes_word _ h]
      simp
  | tryCatch tried gap caught, rest, h => by
      simp only [text, tree, List.append_assoc]
      rw [lexemes_section .TRY tried (endsWord_gap _ _), lexemes_gap _ (endsBlank_section _ _ _),
        lexemes_section .CATCH caught h]
      simp
  | ifThen condition gap yes, rest, h => by
      simp only [text, tree, List.append_assoc]
      rw [lexemes_word _ (endsWord_condition _ _), lexemes_condition _ (endsWord_gap _ _),
        lexemes_gap _ (endsBlank_text _ _), lexemes_tree yes h]
      simp
  | ifElse condition gap yes before after no, rest, h => by
      simp only [text, tree, List.append_assoc]
      rw [lexemes_word _ (endsWord_condition _ _), lexemes_condition _ (endsWord_gap _ _),
        lexemes_gap _ (endsBlank_text _ _), lexemes_tree yes (endsWord_gap _ _),
        lexemes_gap _ (endsBlank_word _ _), lexemes_word _ (endsWord_gap _ _),
        lexemes_gap _ (endsBlank_text _ _), lexemes_tree no h]
      simp
  | loop condition gap body, rest, h => by
      simp only [text, tree, List.append_assoc]
      rw [lexemes_word _ (endsWord_condition _ _), lexemes_condition _ (endsWord_gap _ _),
        lexemes_gap _ (endsBlank_text _ _), lexemes_tree body h]
      simp

theorem lexemes_section (w : Word) : ∀ (s : Section) {rest : List Char}, EndsWord rest →
    lexemes (s.text w ++ rest) = leavesOfList (s.trees w) ++ lexemes rest
  | .mk opening inner last closing, rest, h => by
      simp only [Section.text, Section.trees, List.append_assoc]
      rw [lexemes_word _ (endsWord_gap _ _), lexemes_gap _ (endsBlank_word _ _),
        lexemes_word _ (endsWord_row _ (endsWord_gap _ _)),
        lexemes_row inner (endsWord_gap _ _), lexemes_gap _ (endsBlank_word _ _),
        lexemes_word _ (endsWord_gap _ _), lexemes_gap _ (endsBlank_word _ _),
        lexemes_word _ h]
      simp

/-- A row of statements is lexed as the leaves of its trees. -/
theorem lexemes_row : ∀ (r : Row) {rest : List Char}, EndsWord rest →
    lexemes (r.text ++ rest) = leavesOfList r.trees ++ lexemes rest
  | .nil, rest, h => by simp [Row.text, Row.trees]
  | .cons gap first others, rest, h => by
      simp only [Row.text, Row.trees, List.append_assoc]
      rw [lexemes_gap _ (endsBlank_text _ _), lexemes_tree first (endsWord_row _ h),
        lexemes_row others h]
      simp

end

/-! ### Scripts -/

/-- A batch is lexed as the leaves of its trees. -/
theorem lexemes_batch (b : Batch) {rest : List Char} (h : EndsWord rest) :
    lexemes (b.text ++ rest) = leavesOfList b.trees ++ lexemes rest := by
  cases b with
  | empty => simp [Batch.text, Batch.trees]
  | some first others =>
      simp only [Batch.text, Batch.trees, List.append_assoc]
      rw [lexemes_tree first (endsWord_row _ h), lexemes_row others h]
      simp

/-- The line feed on either side of a separator. -/
def lineEnd : Lexeme := ⟨.newline, ['\n']⟩

/-- The separator. -/
def go : Lexeme := ⟨.word, ['G', 'O']⟩

/-- The line of a separator begins with the end of the line in front of it. -/
theorem endsWord_goLine (rest : List Char) : EndsWord (goLine ++ rest) := by
  intro c hc
  cases hc
  decide

/-- The separator is a word on a line of its own. -/
theorem lexemes_goLine (rest : List Char) :
    lexemes (goLine ++ rest) = lineEnd :: go :: lineEnd :: lexemes rest := by
  have hline : ∀ rest, lexemes ('\n' :: rest) = lineEnd :: lexemes rest := fun rest =>
    @lexemes_of_extent '\n' [] rest .newline (by simp [extent, isSpace])
  have hends : EndsWord ('\n' :: rest) := by
    intro c hc
    cases hc
    decide
  have hgo : lexemes ('G' :: (['O'] ++ '\n' :: rest)) = go :: lexemes ('\n' :: rest) :=
    lexemes_letters (by decide) rfl hends
  show lexemes ('\n' :: 'G' :: (['O'] ++ '\n' :: rest)) = _
  rw [hline, hgo, hline]

@[simp] theorem scriptText_singleton (b : Batch) : scriptText [b] = b.text := by
  simp [scriptText, List.intercalate]

/-- Separator lines stand between batches only. -/
theorem scriptText_cons_cons (b b' : Batch) (bs : List Batch) :
    scriptText (b :: b' :: bs) = b.text ++ (goLine ++ scriptText (b' :: bs)) := by
  simp [scriptText, List.intercalate]

/-- A batch by itself. -/
theorem lexemes_batch_alone (b : Batch) : lexemes b.text = leavesOfList b.trees := by
  have h := lexemes_batch b endsWord_nil
  rw [List.append_nil] at h
  rw [h]
  simp [lexemes, scan]

/-- A batch in front of others. -/
theorem lexemes_scriptText (b b' : Batch) (bs : List Batch) :
    lexemes (scriptText (b :: b' :: bs)) =
      leavesOfList b.trees ++ lineEnd :: go :: lineEnd :: lexemes (scriptText (b' :: bs)) := by
  rw [scriptText_cons_cons, lexemes_batch b (endsWord_goLine _), lexemes_goLine]

/-! ### The words among the lexemes -/

/-- The lexemes are the words, with blank lexemes between them. -/
inductive Spaced : List Lexeme → List Word → Prop where
  | nil : Spaced [] []
  | blank {l : Lexeme} {ls : List Lexeme} {ws : List Word} (hl : l.kind ∈ blankKinds)
      (h : Spaced ls ws) : Spaced (l :: ls) ws
  | word {ls : List Lexeme} {ws : List Word} (w : Word) (h : Spaced ls ws) :
      Spaced (w.lexeme :: ls) (w :: ws)

theorem Spaced.append {ls ls' : List Lexeme} {ws ws' : List Word} (h : Spaced ls ws)
    (h' : Spaced ls' ws') : Spaced (ls ++ ls') (ws ++ ws') := by
  induction h with
  | nil => exact h'
  | blank hl _ ih => exact .blank hl ih
  | word w _ ih => exact .word w ih

/-- White space and comments spell no word. -/
theorem Spaced.gap (b : Blank) {ls : List Lexeme} {ws : List Word} (h : Spaced ls ws) :
    Spaced (leavesOfList b.leaves ++ ls) ws := by
  have hb := kind_of_mem_blank b
  generalize leavesOfList b.leaves = bs at hb
  induction bs with
  | nil => exact h
  | cons l bs ih =>
      exact .blank (hb l List.mem_cons_self) (ih fun l' h' => hb l' (List.mem_cons_of_mem _ h'))

section
variable {ts us : List SyntaxTree} {ws ws' : List Word}

/-- The leaf of a word spells it. -/
theorem Spaced.word_leaf (w : Word) (h : Spaced (leavesOfList ts) ws) :
    Spaced (leavesOfList (w.leaf :: ts)) (w :: ws) := by
  rw [leavesOfList_cons, leaves_leaf_word]
  exact .word w h

/-- White space among the leaves of trees spells no word. -/
theorem Spaced.gap_leaves (b : Blank) (h : Spaced (leavesOfList ts) ws) :
    Spaced (leavesOfList (b.leaves ++ ts)) ws := by
  rw [leavesOfList_append]
  exact h.gap b

theorem Spaced.node (k : Kind) (h : Spaced (leavesOfList ts) ws) :
    Spaced (leavesOfList [.node k ts]) ws := by
  rwa [leavesOfList_cons, leaves_node, leavesOfList_nil, List.append_nil]

theorem Spaced.append_trees (h : Spaced (leavesOfList ts) ws) (h' : Spaced (leavesOfList us) ws') :
    Spaced (leavesOfList (ts ++ us)) (ws ++ ws') := by
  rw [leavesOfList_append]
  exact h.append h'

theorem spaced_nil : Spaced (leavesOfList ([] : List SyntaxTree)) [] := by
  rw [leavesOfList_nil]
  exact .nil

end

/-- A printed condition is `1 = 1`, whatever is between the tokens. -/
theorem spaced_condition (c : Condition) :
    Spaced (leavesOfList c.trees) [.one, .equals, .one] :=
  .gap_leaves _ (.node _ (.word_leaf _ (.gap_leaves _ (.word_leaf _ (.gap_leaves _
    (.word_leaf _ spaced_nil))))))

mutual

/-- **The significant lexemes of a printed statement are its words.** -/
theorem spaced_tree : ∀ p : Printed, Spaced (leavesOfList [p.tree]) p.words
  | simple gap none => by
      rw [tree, words]
      exact .node _ (.word_leaf _ (.gap_leaves _ (.word_leaf _ spaced_nil)))
  | simple gap (some blank) => by
      rw [tree, words]
      exact .node _ (.word_leaf _ (.gap_leaves _ (.word_leaf _ (.gap_leaves _
        (.word_leaf _ spaced_nil)))))
  | block inner last => by
      rw [tree, words]
      exact .node _ (.word_leaf _ ((spaced_row inner).append_trees
        (.gap_leaves _ (.word_leaf _ spaced_nil))))
  | tryCatch tried gap caught => by
      rw [tree, words]
      exact .node _ ((spaced_section .TRY tried).append_trees
        (.gap_leaves _ (spaced_section .CATCH caught)))
  | ifThen condition gap yes => by
      rw [tree, words]
      exact .node _ (.word_leaf _ ((spaced_condition condition).append_trees
        (.gap_leaves _ (spaced_tree yes))))
  | ifElse condition gap yes before after no => by
      rw [tree, words]
      have helse := (((spaced_tree no).gap_leaves after.toBlank).word_leaf .ELSE).node .elseClause
      exact .node _ (.word_leaf _ ((spaced_condition condition).append_trees
        (.gap_leaves _ ((spaced_tree yes).append_trees (.gap_leaves _ helse)))))
  | loop condition gap body => by
      rw [tree, words]
      exact .node _ (.word_leaf _ ((spaced_condition condition).append_trees
        (.gap_leaves _ (spaced_tree body))))

theorem spaced_section (w : Word) : ∀ s : Section, Spaced (leavesOfList (s.trees w)) (s.words w)
  | .mk opening inner last closing => by
      rw [Section.trees, Section.words]
      exact .word_leaf _ (.gap_leaves _ (.word_leaf _ ((spaced_row inner).append_trees
        (.gap_leaves _ (.word_leaf _ (.gap_leaves _ (.word_leaf _ spaced_nil)))))))

theorem spaced_row : ∀ r : Row, Spaced (leavesOfList r.trees) r.words
  | .nil => by
      rw [Row.trees, Row.words]
      exact spaced_nil
  | .cons gap first others => by
      rw [Row.trees, Row.words]
      exact .gap_leaves _ ((spaced_tree first).append_trees (spaced_row others))

end

/-- A batch spells its words. -/
theorem spaced_batch (b : Batch) : Spaced (leavesOfList b.trees) b.words := by
  cases b with
  | empty => exact spaced_nil
  | some first others => exact (spaced_tree first).append_trees (spaced_row others)

end Printed

end SqlCaret
