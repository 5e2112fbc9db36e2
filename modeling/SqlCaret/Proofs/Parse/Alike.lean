import SqlCaret.Proofs.Parse.Errors
import SqlCaret.Proofs.Parse.Separators
import SqlCaret.Proofs.Syntax.Alike
import SqlCaret.Proofs.Tree.Beside

/-!
# Parse — alike

Texts whose lexemes are alike in pairs are parsed alike (`Parse.sameStructure_of_alike`): the trees
have the same nodes over the same tokens, and the errors are the same faults at the same tokens.

An error stands at a byte, and the bytes of the two texts differ; so the errors are taken as faults
at tokens first.  Grammar counts significant tokens only, hence `Token.ordinal`, which counts all of
them.  Tokens and bytes are in the same order (`Token.startAt_le_startAt_iff`), so that sorting the
errors and sorting the faults come to the same (`SyntaxError.sort_map_atToken`).
-/

namespace SqlCaret

open SqlCaret.Tree

/-! ### Tokens and bytes -/

namespace Token

/-- Where the token starts that has `i` others before it; past the last one that is the end of the
text. -/
def startAt (ts : List Token) (i : Nat) : Nat :=
  match ts[i]? with
  | some t => t.offset
  | none => finalStop ts

theorem startAt_of_getElem? {ts : List Token} {i : Nat} {t : Token} (h : ts[i]? = some t) :
    startAt ts i = t.offset := by
  rw [startAt, h]

theorem startAt_lt_startAt {text : List Char} {i j : Nat} (hij : i < j)
    (hi : i < (tokenize text).length) :
    startAt (tokenize text) i < startAt (tokenize text) j := by
  have horder : (tokenize text).Pairwise (·.offset < ·.offset) :=
    pairwise_place (fun l => text_ne_nil_of_mem_lexemes) 0
  rw [startAt_of_getElem? (List.getElem?_eq_getElem hi), startAt]
  split
  · rename_i t ht
    obtain ⟨hj, rfl⟩ := List.getElem?_eq_some_iff.mp ht
    exact List.pairwise_iff_getElem.mp horder i j hi hj hij
  · rw [finalStop_tokenize]
    exact offset_lt_size (List.getElem_mem hi)

/-- **Tokens and their bytes are in the same order**, up to the end of the text. -/
theorem startAt_le_startAt_iff {text : List Char} {i j : Nat} (hi : i ≤ (tokenize text).length)
    (hj : j ≤ (tokenize text).length) :
    startAt (tokenize text) i ≤ startAt (tokenize text) j ↔ i ≤ j := by
  constructor
  · intro hle
    refine Nat.le_of_not_lt fun hlt => ?_
    have hlt : startAt (tokenize text) j < startAt (tokenize text) i :=
      startAt_lt_startAt hlt (by omega)
    omega
  · intro hle
    rcases Nat.lt_or_eq_of_le hle with hlt | rfl
    · exact Nat.le_of_lt (startAt_lt_startAt hlt (by omega))
    · exact Nat.le_refl _

/-- How many tokens of these kinds come before the significant one that has `n` significant ones
before it. -/
def ordinal : List Kind → Nat → Nat
  | [], _ => 0
  | k :: ks, n =>
    if k.isTrivia then ordinal ks n + 1
    else
      match n with
      | 0 => 0
      | n + 1 => ordinal ks n + 1

theorem ordinal_le (ks : List Kind) (n : Nat) : ordinal ks n ≤ ks.length := by
  fun_induction ordinal ks n <;> simp_all

theorem getElem?_significant (ts : List Token) (n : Nat) :
    (significant ts)[n]? = ts[ordinal (ts.map (·.kind)) n]? := by
  induction ts generalizing n with
  | nil => rfl
  | cons t ts ih =>
      by_cases h : t.kind.isTrivia = true
      · have hskip : significant (t :: ts) = significant ts :=
          List.filter_cons_of_neg (by simpa [isTrivia] using h)
        simp only [hskip, List.map_cons, ordinal, if_pos h, List.getElem?_cons_succ, ih]
      · have htake : significant (t :: ts) = t :: significant ts :=
          List.filter_cons_of_pos (by simpa [isTrivia] using h)
        cases n with
        | zero => simp only [htake, List.map_cons, ordinal, if_neg h, List.getElem?_cons_zero]
        | succ n =>
            simp only [htake, List.map_cons, ordinal, if_neg h, List.getElem?_cons_succ, ih]

theorem offsetAt_eq_startAt (ts : List Token) (n : Nat) :
    offsetAt ts n = startAt ts (ordinal (ts.map (·.kind)) n) := by
  rw [startAt, ← getElem?_significant]
  rfl

end Token

/-! ### Faults at tokens -/

namespace SyntaxError

/-- The error that a fault at the token with `f.2` others before it is. -/
def atToken (ts : List Token) (f : SyntaxFault × Nat) : SyntaxError := ⟨f.1, Token.startAt ts f.2⟩

/-- The faults of a text whose tokens have the kinds `ks`, where the grammar has met `ps`. -/
def faults (ks : List Kind) (ps : List Problem) : List (SyntaxFault × Nat) :=
  ps.map (fun p => (p.fault, Token.ordinal ks p.index)) ++
    ks.zipIdx.filterMap fun k => (faultOf? k.1).map (·, k.2)

theorem le_length_of_mem_faults {ks : List Kind} {ps : List Problem} {f : SyntaxFault × Nat}
    (h : f ∈ faults ks ps) : f.2 ≤ ks.length := by
  rcases List.mem_append.mp h with h | h
  · obtain ⟨p, -, rfl⟩ := List.mem_map.mp h
    exact Token.ordinal_le ks p.index
  · obtain ⟨k, hk, hfault⟩ := List.mem_filterMap.mp h
    obtain ⟨fault, -, rfl⟩ := Option.map_eq_some_iff.mp hfault
    have := List.snd_lt_of_mem_zipIdx hk
    omega

theorem ofTokens_eq (ts : List Token) :
    ofTokens ts = ((ts.map (·.kind)).zipIdx.filterMap fun k => (faultOf? k.1).map (·, k.2)).map
      (atToken ts) := by
  have hzip : ts = ts.zipIdx.map (·.1) := by simp
  rw [ofTokens, List.zipIdx_map, List.filterMap_map, List.map_filterMap]
  conv_lhs => rw [hzip, List.filterMap_map]
  refine List.filterMap_congr fun t ht => ?_
  have hstart : Token.startAt ts t.2 = t.1.offset :=
    Token.startAt_of_getElem? (List.mem_zipIdx_iff_getElem?.mp ht)
  cases hfault : faultOf? t.1.kind <;> simp [atToken, hfault, hstart]

/-- The errors of a text are its faults, in their places. -/
theorem map_atToken_faults (ts : List Token) (ps : List Problem) :
    (faults (ts.map (·.kind)) ps).map (atToken ts) =
      ps.map (ofProblem ts) ++ ofTokens ts := by
  rw [faults, List.map_append, ofTokens_eq, List.map_map]
  congr 1
  refine List.map_congr_left fun p _ => ?_
  rw [ofProblem, Token.offsetAt_eq_startAt]
  rfl

/-- **Sorting by bytes is sorting by tokens.** -/
theorem sort_map_atToken {text : List Char} {fs : List (SyntaxFault × Nat)}
    (h : ∀ f ∈ fs, f.2 ≤ (tokenize text).length) :
    sort (fs.map (atToken (tokenize text))) =
      (fs.mergeSort fun a b => a.2 ≤ b.2).map (atToken (tokenize text)) :=
  (List.map_mergeSort fun a ha b hb => decide_eq_decide.mpr
    (Token.startAt_le_startAt_iff (h a ha) (h b hb)).symm).symm

end SyntaxError

/-! ### Parses -/

namespace Parse

/-- The errors of a text, as far as its tokens tell. -/
theorem errors_eq_map (text separator : List Char) :
    (ofText text separator).errors =
      ((SyntaxError.faults ((lexemes text).map (·.kind))
        (Outline.script (cursor separator text)).problems).mergeSort fun a b => a.2 ≤ b.2).map
          (SyntaxError.atToken (tokenize text)) := by
  have hkinds : (tokenize text).map (·.kind) = (lexemes text).map (·.kind) := by
    rw [← map_toLexeme_tokenize, List.map_map]
    rfl
  rw [errors_eq, ← SyntaxError.map_atToken_faults, SyntaxError.sort_map_atToken, hkinds]
  intro f hf
  have hle := SyntaxError.le_length_of_mem_faults hf
  rwa [List.length_map] at hle

/-- Two parses that differ only in the texts of their tokens, related by `R` in pairs: the same
nodes over the same tokens, and the same faults in the same order, each at the start of the same
token or at the end of the text. -/
structure SameStructure (R : Lexeme → Lexeme → Prop) (text text' : List Char) (p p' : Parse) :
    Prop where
  nodes : stretches 0 p.tree = stretches 0 p'.tree
  tokens : Beside R [p.tree] [p'.tree]
  errors : ∃ faults : List (SyntaxFault × Nat),
    (∀ f ∈ faults, f.2 ≤ (tokenize text).length ∧ f.2 ≤ (tokenize text').length) ∧
      p.errors = faults.map (SyntaxError.atToken (tokenize text)) ∧
      p'.errors = faults.map (SyntaxError.atToken (tokenize text'))

/-- **Texts with the same marks are parsed alike.** -/
theorem sameStructure {R : Lexeme → Lexeme → Prop} (hkind : ∀ l l', R l l' → l.kind = l'.kind)
    {text text' separator separator' : List Char}
    (h : List.Forall₂ R (lexemes text) (lexemes text'))
    (hcursor : cursor separator text = cursor separator' text') :
    SameStructure R text text' (ofText text separator) (ofText text' separator') := by
  obtain ⟨ts, rest, hw, hrest⟩ := exists_weaves_lexemes separator text
  obtain ⟨ts', rest', hw', hrest'⟩ := exists_weaves_lexemes separator' text'
  have htree : (ofText text separator).tree = .node .script (ts ++ rest.map .leaf) := by
    rw [(ofText_eq hw hrest).2]
  have htree' : (ofText text' separator').tree = .node .script (ts' ++ rest'.map .leaf) := by
    rw [(ofText_eq hw' hrest').2]
  have houtlines : outlines separator text = outlines separator' text' := by
    rw [outlines, outlines, hcursor]
  rw [← houtlines] at hw'
  obtain ⟨hts, hrests⟩ := hw.beside hkind h hw'
  have htokens : Beside R [(ofText text separator).tree] [(ofText text' separator').tree] := by
    rw [htree, htree']
    exact .node (hts.append (.map_leaf hrests)) .nil
  refine ⟨?_, htokens, _, ?_, errors_eq_map text separator, ?_⟩
  · have hnodes := htokens.stretchesOfList 0
    simpa using hnodes
  · intro f hf
    have hle := SyntaxError.le_length_of_mem_faults (List.mem_mergeSort.mp hf)
    have hlength := h.length_eq
    rw [List.length_map] at hle
    rw [tokenize, tokenize, Token.length_place, Token.length_place]
    omega
  · rw [errors_eq_map, hcursor, Lexeme.map_kind_eq hkind h]

/-- **Structure depends on marks alone.** -/
theorem sameStructure_of_alike {text text' separator separator' : List Char}
    (h : List.Forall₂ Lexeme.Alike (lexemes text) (lexemes text'))
    (hs : Letters.fold separator = Letters.fold separator') :
    SameStructure Lexeme.Alike text text' (ofText text separator) (ofText text' separator') :=
  sameStructure (fun _ _ hl => hl.kind) h (cursor_congr h hs)

end Parse

end SqlCaret
