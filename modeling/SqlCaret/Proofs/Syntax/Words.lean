import Mathlib.Data.List.Nodup
import SqlCaret.Syntax.Cursor.Token

/-!
# Syntax — words

The grammar asks a cursor for keywords, which it finds in marks.  One may also ask for words, which
are looked up in the tokens (`Cursor.isWord`, `Cursor.prevIsWord`).  The answers are the same.

A keyword has one spelling (`Keyword.fold_eq_of_ofWord?`), so a token is a given word just if its
lexeme spells the keyword of that word (`Token.isWord_iff`).  A cursor stands `Among` tokens if its
marks have the keywords that their lexemes spell.  It does so in front of a text, and wherever it
comes from there (`Cursor.Among.ofLexemes`, `Cursor.Among.advance`).
-/

namespace SqlCaret

namespace Keyword

theorem mem_entries_of_ofWord? {w : List Char} {k : Keyword} (h : ofWord? w = some k) :
    (Letters.fold w, k) ∈ entries := by
  obtain ⟨e, he, rfl⟩ := Option.map_eq_some_iff.mp h
  have hword : e.1 = Letters.fold w := by simpa using List.find?_some he
  rw [← hword]
  exact List.mem_of_find?_eq_some he

/-- No keyword is in the table twice. -/
theorem nodup_all : all.Nodup := by decide

/-- Words that spell the same keyword differ in letter case at most. -/
theorem fold_eq_of_ofWord? {v w : List Char} {k : Keyword} (hv : ofWord? v = some k)
    (hw : ofWord? w = some k) : Letters.fold v = Letters.fold w := by
  have hall : entries.map (·.2) = all := by simp [entries, all, Function.comp_def]
  have hnodup : (entries.map (·.2)).Nodup := hall ▸ nodup_all
  have heq := List.inj_on_of_nodup_map hnodup (mem_entries_of_ofWord? hv)
    (mem_entries_of_ofWord? hw) rfl
  exact congrArg Prod.fst heq

end Keyword

/-- The keyword that a lexeme spells. -/
def Lexeme.keyword? (l : Lexeme) : Option Keyword :=
  if l.kind = .word then Keyword.ofWord? l.text else none

/-- The marks have the keywords of the significant lexemes. -/
theorem Mark.map_keyword_read (separator : List Char) (o b : Bool) (ls : List Lexeme) :
    (read separator o b ls).map (·.keyword) =
      (ls.filter (!·.kind.isTrivia)).map Lexeme.keyword? := by
  induction ls generalizing o b with
  | nil => rfl
  | cons l ls ih =>
      by_cases h : l.kind.isTrivia = true
      · simp [read, h, ih]
      · simp [read, h, ih, ofLexeme, Lexeme.keyword?]

theorem Token.isWord_iff {t : Token} {w : List Char} {k : Keyword}
    (hw : Keyword.ofWord? w = some k) : t.isWord w = true ↔ t.keyword? = some k := by
  rw [isWord, Bool.and_eq_true, beq_iff_eq, Letters.same_iff, Lexeme.keyword?,
    Option.ite_none_right_eq_some]
  refine and_congr_right fun _ => ⟨fun h => ?_, fun h => Keyword.fold_eq_of_ofWord? h hw⟩
  rw [Keyword.ofWord?_congr h, hw]

namespace Cursor

variable {ts : List Token} {c : Cursor} {n : Nat} {k : Keyword} {ks : List Keyword}
  {w : List Char} {ws : List (List Char)}

/-- The marks around the cursor have the keywords of the tokens around it. -/
structure Among (ts : List Token) (c : Cursor) : Prop where
  ahead : c.ahead.map (·.keyword) =
    ((Token.significant ts).drop c.index).map (·.toLexeme.keyword?)
  prev : c.prev.map (·.keyword) = (c.prevToken? ts).map (·.toLexeme.keyword?)

namespace Among

/-- In front of the marks of a text's lexemes. -/
theorem ofLexemes (separator : List Char) (ts : List Token) :
    Among ts (ofMarks (Mark.ofLexemes separator (ts.map Token.toLexeme))) := by
  refine ⟨?_, rfl⟩
  show (Mark.read separator true true (ts.map Token.toLexeme)).map (·.keyword) = _
  rw [Mark.map_keyword_read, List.filter_map, List.map_map]
  rfl

theorem advance (h : c.Among ts) : c.advance.Among ts := by
  obtain ⟨prev, ahead, index⟩ := c
  cases ahead with
  | nil => exact h
  | cons m ms =>
      obtain ⟨hahead, -⟩ := h
      cases hdrop : (Token.significant ts).drop index with
      | nil => simp [hdrop] at hahead
      | cons t rest =>
          simp only [hdrop, List.map_cons, List.cons.injEq] at hahead
          have hbehind : (Token.significant ts).drop (index + 1) = rest := by
            rw [← List.drop_drop, hdrop, List.drop_one, List.tail_cons]
          have hpassed : (Token.significant ts)[index]? = some t := by
            rw [← Nat.add_zero index, ← List.getElem?_drop, hdrop, List.getElem?_cons_zero]
          refine ⟨?_, ?_⟩
          · show ms.map (·.keyword) = ((Token.significant ts).drop (index + 1)).map _
            rw [hbehind, hahead.2]
          · simp only [Cursor.advance, prevToken?, if_neg (Nat.succ_ne_zero index),
              Nat.add_sub_cancel, hpassed, Option.map_some, hahead.1]

/-- The keyword ahead is that of the token ahead. -/
theorem keyword?_eq (h : c.Among ts) (n : Nat) :
    c.keyword? n = (c.token? ts n).bind (·.toLexeme.keyword?) := by
  have hget := congrArg (·[n]?) h.ahead
  simp only [List.getElem?_map, List.getElem?_drop] at hget
  have hkeyword := congrArg (Option.bind · id) hget
  simp only [Option.bind_map, Function.comp_def, id] at hkeyword
  exact hkeyword

/-- The keyword just passed is that of the token just passed. -/
theorem prevKeyword?_eq (h : c.Among ts) :
    c.prev.bind (·.keyword) = (c.prevToken? ts).bind (·.toLexeme.keyword?) := by
  have hkeyword := congrArg (Option.bind · id) h.prev
  simp only [Option.bind_map, Function.comp_def, id] at hkeyword
  exact hkeyword

end Among

/-- A token is one of some words if it spells one of the keywords of those words. -/
theorem any_isWord_eq (hws : ws.map Keyword.ofWord? = ks.map some) (t : Token) :
    ws.any (t.isWord ·) =
      match t.toLexeme.keyword? with
      | some k => ks.contains k
      | none => false := by
  have hiff : ws.any (t.isWord ·) = true ↔ ∃ k ∈ ks, t.toLexeme.keyword? = some k := by
    rw [List.any_eq_true]
    constructor
    · rintro ⟨w, hw, hword⟩
      obtain ⟨k, hk, hsome⟩ := List.mem_map.mp (hws ▸ List.mem_map_of_mem hw)
      exact ⟨k, hk, (Token.isWord_iff hsome.symm).mp hword⟩
    · rintro ⟨k, hk, hkeyword⟩
      obtain ⟨w, hw, hsome⟩ := List.mem_map.mp (hws ▸ List.mem_map_of_mem hk)
      exact ⟨w, hw, (Token.isWord_iff hsome).mpr hkeyword⟩
  rw [Bool.eq_iff_iff, hiff]
  cases t.toLexeme.keyword? <;> simp

namespace Among

/-- **Asking for keywords ahead is asking for words ahead.** -/
theorem isAny_eq (h : c.Among ts) (hws : ws.map Keyword.ofWord? = ks.map some) (n : Nat) :
    c.isAny n ks = c.isWord ts n ws := by
  rw [isAny, isWord, h.keyword?_eq]
  cases c.token? ts n with
  | none => rfl
  | some t => exact (any_isWord_eq hws t).symm

theorem isKeyword_eq (h : c.Among ts) (hw : Keyword.ofWord? w = some k) (n : Nat) :
    c.isKeyword n k = c.isWord ts n [w] := by
  rw [isKeyword, isWord, h.keyword?_eq]
  cases c.token? ts n with
  | none => rfl
  | some t =>
      rw [Bool.eq_iff_iff, Option.bind_some, beq_iff_eq, ← Token.isWord_iff hw]
      simp

/-- **Asking for keywords just passed is asking for words just passed.** -/
theorem prevIsAny_eq (h : c.Among ts) (hws : ws.map Keyword.ofWord? = ks.map some) :
    c.prevIsAny ks = c.prevIsWord ts ws := by
  rw [prevIsAny, prevIsWord, h.prevKeyword?_eq]
  cases c.prevToken? ts with
  | none => rfl
  | some t => exact (any_isWord_eq hws t).symm

end Among

end Cursor

end SqlCaret
