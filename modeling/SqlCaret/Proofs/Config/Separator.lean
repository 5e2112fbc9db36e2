import Mathlib.Data.List.TakeWhile
import SqlCaret.Config.File
import SqlCaret.Proofs.Parse.Separators
import SqlCaret.Proofs.Syntax.Cut

/-!
# Config — separator

Settings ask of a separator only that it has some characters and no blank among them
(`Config.check?_eq_some`), and the lexer has an idea of its own what a word is
(`Lexeme.spellsWord`).  Where the lexer agrees, the separator does its work: on a line between two
statements it makes two batches of them (`Config.loaded_separator`).

The statements here are `PRINT 1` and `PRINT 2`.  For one separator they are none: `PRINT` itself,
in any letter case, makes separator lines of both, with the numbers as repeat counts.
-/

namespace SqlCaret

open SqlCaret.Tree

/-! ### Words of the lexer -/

namespace Lexeme

/-- Whether a text is a word by its characters. -/
def spellsWord : List Char → Bool
  | [] => false
  | c :: cs => isWordStart c && cs.all isWordPart

theorem fst_quoted_ne {close : Char} {closed unclosed k : Kind} {skipped : Nat} {cs : List Char}
    (hclosed : closed ≠ k) (hunclosed : unclosed ≠ k) :
    (quoted close closed unclosed skipped cs).1 ≠ k := by
  simp only [quoted]
  split
  · exact hclosed
  · exact hunclosed

/-- A token that is a word takes all that a word can go on with. -/
theorem extent_of_word {c : Char} {cs : List Char} :
    (extent c cs).1 = .word → isWordStart c = true ∧ (extent c cs).2 = run isWordPart cs := by
  refine extent_cases (P := fun e => e.1 = .word → isWordStart c = true ∧ e.2 = run isWordPart cs)
    c cs ?space ?lf ?cr ?lineComment ?blockComment ?string ?nationalString ?brackets ?doubleQuotes
    ?digit ?dot ?dotNumber ?word ?single
  case word => exact fun hc _ => ⟨hc, rfl⟩
  case blockComment =>
      intro _ _ h
      simp only at h
      split at h <;> cases h
  case string => exact fun _ h => absurd h (fst_quoted_ne (by decide) (by decide))
  case nationalString => exact fun _ _ h => absurd h (fst_quoted_ne (by decide) (by decide))
  case brackets => exact fun _ h => absurd h (fst_quoted_ne (by decide) (by decide))
  case doubleQuotes => exact fun _ h => absurd h (fst_quoted_ne (by decide) (by decide))
  case single =>
      rintro k hk rfl
      simp at hk
  all_goals
    intros
    contradiction

/-- No digit can begin a word. -/
theorem isDigit_of_isWordStart {c : Char} (h : isWordStart c = true) : c.isDigit = false := by
  rw [← Bool.not_eq_true]
  intro hdigit
  have hdigits : ∀ n < 58, 48 ≤ n → isWordStart (Char.ofNat n) = false := by decide
  simp only [Char.isDigit, Bool.and_eq_true, decide_eq_true_eq, ge_iff_le] at hdigit
  have hno := hdigits c.toNat (Nat.lt_succ_of_le hdigit.2) hdigit.1
  rw [Char.ofNat_toNat, h] at hno
  cases hno

/-- Where a word can begin, it does, unless a quote makes a string of it. -/
theorem extent_of_isWordStart {c : Char} {cs : List Char} (hc : isWordStart c = true)
    (hquote : cs.head? ≠ some '\'') : extent c cs = (.word, run isWordPart cs) := by
  have hne : ∀ d, isWordStart d = false → c ≠ d := by
    rintro d hd rfl
    rw [hc] at hd
    cases hd
  have hspace : isSpace c = false := by
    simp [isSpace, hne ' ' rfl, hne '\t' rfl, hne '\x0b' rfl, hne '\x0c' rfl]
  simp [extent, hspace, hne '\n' rfl, hne '\r' rfl, hne '-' rfl, hne '/' rfl, hne '\'' rfl,
    hne '[' rfl, hne '"' rfl, hne '.' rfl, isDigit_of_isWordStart hc, hc, hquote]

end Lexeme

/-- **The lexer takes a text as one word** just where it is one by its characters. -/
theorem map_kind_lexemes_eq_word_iff {text : List Char} :
    (lexemes text).map (·.kind) = [.word] ↔ Lexeme.spellsWord text = true := by
  cases text with
  | nil => simp [lexemes, Lexeme.scan, Lexeme.spellsWord]
  | cons c cs =>
      rw [Lexeme.lexemes_cons, List.map_cons, Lexeme.spellsWord, Bool.and_eq_true, List.all_eq_true]
      constructor
      · intro h
        obtain ⟨hkind, hbehind⟩ := List.cons.inj h
        obtain ⟨hc, hn⟩ := Lexeme.extent_of_word hkind
        -- no lexeme is behind the word, so no character is
        have hnil : lexemes (cs.drop (Lexeme.extent c cs).2) = [] := List.map_eq_nil_iff.mp hbehind
        have hall : cs.dropWhile Lexeme.isWordPart = [] := by
          rw [← Lexeme.drop_run, ← hn, ← flatMap_text_lexemes (cs.drop _), hnil]
          rfl
        exact ⟨hc, List.dropWhile_eq_nil_iff.mp hall⟩
      · rintro ⟨hc, hcs⟩
        have hquote : cs.head? ≠ some '\'' := by
          intro hquote
          cases hcs _ (List.mem_of_head? hquote)
        rw [Lexeme.extent_of_isWordStart hc hquote, Lexeme.drop_run,
          List.dropWhile_eq_nil_iff.mpr hcs]
        rfl

theorem lexemes_eq_of_word {w : List Char} (h : (lexemes w).map (·.kind) = [.word]) :
    lexemes w = [⟨.word, w⟩] := by
  obtain ⟨l, hls, hkind⟩ := List.map_eq_singleton_iff.mp h
  have htext : l.text = w := by simpa [hls] using flatMap_text_lexemes w
  rw [hls, ← hkind, ← htext]

/-! ### A separator between two statements -/

/-- Two statements, and `separator` on the line between them. -/
def twoPrints (separator : List Char) : List Char :=
  "PRINT 1\n".toList ++ separator ++ "\nPRINT 2\n".toList

/-- The marks of `PRINT` and a number on a line, where `PRINT` is the separator or not. -/
def printMarks (same : Bool) : List Mark :=
  [⟨.word, some .PRINT, same, true, true⟩, ⟨.number, none, false, false, false⟩]

/-- The marks of a separator on its line. -/
def separatorMark (keyword : Option Keyword) : Mark := ⟨.word, keyword, true, true, true⟩

theorem ofLexemes_print (w : List Char) {text digit : List Char} {behind : List Lexeme}
    (h : lexemes text =
      [⟨.word, "PRINT".toList⟩, ⟨.whitespace, [' ']⟩, ⟨.number, digit⟩] ++ behind)
    (hbehind : ∀ l ∈ behind, l.kind.isTrivia = true) :
    Mark.ofLexemes w (lexemes text) = printMarks (Letters.same "PRINT".toList w) := by
  have hkeyword : Keyword.ofWord? "PRINT".toList = some .PRINT := by decide +kernel
  rw [h, Mark.ofLexemes, Mark.read_append_trivia w true true _ hbehind]
  simp only [Mark.read, Mark.ofLexeme, hkeyword, Kind.isTrivia, Mark.hasBreak]
  simp [printMarks]

theorem append_lines {a b a' b' : List Char} (ha : a = a' ++ ['\n']) (hb : b = '\n' :: b')
    (cs : List Char) : a ++ cs ++ b = a' ++ '\n' :: (cs ++ '\n' :: b') := by
  rw [ha, hb, List.append_assoc, List.append_assoc, List.singleton_append]

section
variable {w : List Char}

/-- The marks of a separator stand between those of the statements, unless something in it is
without an end. -/
theorem cursor_twoPrints (hclosed : ∀ l ∈ lexemes w, l.kind ∉ Kind.unterminated) :
    Parse.cursor w (twoPrints w) = .ofMarks (printMarks (Letters.same "PRINT".toList w) ++
      (Mark.ofLexemes w (lexemes w) ++ printMarks (Letters.same "PRINT".toList w))) := by
  have hfirst : lexemes "PRINT 1".toList =
      [⟨.word, "PRINT".toList⟩, ⟨.whitespace, [' ']⟩, ⟨.number, ['1']⟩] ++ [] := by
    decide +kernel
  have hlast : lexemes "PRINT 2\n".toList =
      [⟨.word, "PRINT".toList⟩, ⟨.whitespace, [' ']⟩, ⟨.number, ['2']⟩] ++
        [⟨.newline, ['\n']⟩] := by decide +kernel
  have htext : twoPrints w = "PRINT 1".toList ++ '\n' :: (w ++ '\n' :: "PRINT 2\n".toList) :=
    append_lines (by decide +kernel) (by decide +kernel) w
  have hclosed' : ∀ l ∈ lexemes "PRINT 1".toList, l.kind ∉ Kind.unterminated := by
    rw [hfirst]
    simp [Kind.unterminated]
  obtain ⟨_, _, hcut⟩ := exists_cut hclosed
  obtain ⟨_, _, hcut'⟩ := exists_cut hclosed'
  rw [Parse.cursor, htext, hcut'.ofLexemes, hcut.ofLexemes, ofLexemes_print w hfirst (by simp),
    ofLexemes_print w hlast (by simp [Kind.isTrivia])]

/-- The marks if the separator is a word. -/
theorem cursor_twoPrints_word (hw : (lexemes w).map (·.kind) = [.word]) :
    Parse.cursor w (twoPrints w) = .ofMarks (printMarks (Letters.same "PRINT".toList w) ++
      separatorMark (Keyword.ofWord? w) :: printMarks (Letters.same "PRINT".toList w)) := by
  have hword := lexemes_eq_of_word hw
  have hclosed : ∀ l ∈ lexemes w, l.kind ∉ Kind.unterminated := by
    rw [hword]
    simp [Kind.unterminated]
  have hline : Mark.ofLexemes w (lexemes w) = [separatorMark (Keyword.ofWord? w)] := by
    rw [hword]
    simp [Mark.ofLexemes, Mark.read, Mark.ofLexeme, Kind.isTrivia, separatorMark, Letters.same]
  rw [cursor_twoPrints hclosed, hline, List.singleton_append]

/-- None of the four words is `PRINT`. -/
theorem same_print_of_unguarded {k : Keyword} (hk : k ∈ Keyword.unguarded)
    (h : Keyword.ofWord? w = some k) : Letters.same "PRINT".toList w = false := by
  rw [← Bool.not_eq_true]
  intro hsame
  have hprint : Keyword.ofWord? "PRINT".toList = some .PRINT := by decide +kernel
  rw [← Keyword.ofWord?_congr (Letters.same_iff.mp hsame), hprint] at h
  obtain rfl := Option.some.inj h
  simp [Keyword.unguarded] at hk

/-- How many batches a separator that is a word makes. -/
theorem length_batches_twoPrints (hw : (lexemes w).map (·.kind) = [.word]) :
    (ParsedScript.ofText (twoPrints w) w).script.batches.length =
      if Letters.same "PRINT".toList w then 4 else 2 := by
  have hcursor := cursor_twoPrints_word hw
  by_cases hk : ∃ k ∈ Keyword.unguarded, Keyword.ofWord? w = some k
  · obtain ⟨k, hk, hkeyword⟩ := hk
    rw [hkeyword, same_print_of_unguarded hk hkeyword] at hcursor
    rw [Parse.length_batches, Parse.outlines, hcursor, same_print_of_unguarded hk hkeyword]
    -- the grammar passes these words without asking only inside of what they belong to
    have hall : ∀ k ∈ Keyword.unguarded, (nodeKinds (Outline.batches 6
        (.ofMarks (printMarks false ++ separatorMark (some k) :: printMarks false))).value).count
          .batch = 2 := by decide
    exact hall k hk
  · rw [Parse.length_batches_eq_lineCount fun k hk' hw' => hk ⟨k, hk', hw'⟩, hcursor]
    cases Letters.same "PRINT".toList w <;> rfl

end

/-! ### Settings in a file -/

namespace Config

theorem check?_eq_some {c c' : Config} :
    c.check? = some c' ↔ isWord (Blank.trim c.separator) = true ∧
      c' = { c with separator := Blank.trim c.separator } := by
  simp only [check?]
  split
  · rename_i h
    simp [h, eq_comm]
  · rename_i h
    simp [h]

theorem isWord_iff {cs : List Char} :
    isWord cs = true ↔ cs ≠ [] ∧ ∀ c ∈ cs, Blank.isBlank c = false := by
  simp [isWord]

/-- Settings from the content of a file have passed the check. -/
theorem isWord_of_ofBytes {path : Path} {bytes : List UInt8} {c : Config}
    (h : ofBytes path bytes = .ok c) : isWord c.separator = true := by
  unfold ofBytes at h
  split at h
  · cases h
  split at h
  · cases h
  split at h
  · cases h
  · rename_i c' hcheck
    obtain ⟨hword, hc⟩ := check?_eq_some.mp hcheck
    obtain rfl : c' = c := Except.ok.inj h
    rw [hc]
    exact hword

theorem ofBytes_of_load {store : FileStore Id} {env : Environment} {path : Path} {c : Config}
    (h : (load store env path).run = .ok (some c)) :
    ∃ bytes, (store.read (Path.expand env path)).run = .ok bytes ∧
      ofBytes (Path.expand env path) bytes = .ok c := by
  simp only [load, Id.run_bind] at h
  split at h
  · rename_i bytes hread
    rw [Id.run_pure] at h
    cases hbytes : ofBytes (Path.expand env path) bytes with
    | error fault =>
        rw [hbytes] at h
        cases h
    | ok c' =>
        rw [hbytes] at h
        cases h
        exact ⟨bytes, hread, hbytes⟩
  · split at h <;> cases h

/-- **A loaded separator that is a word parts two statements.**  Any separator that is loaded has
some characters and no blank among them.  The lexer takes it as one word just if it begins with a
character that a word can begin with and goes on with those that a word can go on with.  Then two
statements with the separator on the line between them are two batches; only `PRINT`, in any letter
case, makes separator lines of the statements too, and four batches. -/
theorem loaded_separator {store : FileStore Id} {env : Environment} {path : Path} {c : Config}
    (h : (load store env path).run = .ok (some c)) :
    (c.separator ≠ [] ∧ ∀ ch ∈ c.separator, Blank.isBlank ch = false) ∧
      ((lexemes c.separator).map (·.kind) = [.word] ↔ Lexeme.spellsWord c.separator = true) ∧
      ((lexemes c.separator).map (·.kind) = [.word] →
        (ParsedScript.ofText (twoPrints c.separator) c.separator).script.batches.length =
          if Letters.same "PRINT".toList c.separator then 4 else 2) := by
  obtain ⟨bytes, -, hbytes⟩ := ofBytes_of_load h
  exact ⟨isWord_iff.mp (isWord_of_ofBytes hbytes), map_kind_lexemes_eq_word_iff,
    fun hw => length_batches_twoPrints hw⟩

/-- What is loaded if every path leads to a file with this text. -/
def loadText (text : String) : Except Fault (Option Config) :=
  let store : FileStore Id := ⟨fun _ => .ok (Utf8.encode text.toList)⟩
  (load store ⟨none, fun _ => none⟩ "config.toml".toList).run

/-- The blanks around a separator are taken off, and it makes two batches. -/
theorem loaded_separator_run :
    let c : Config := { separator := "run".toList }
    loadText "batch_separator = \"  run \"\n" = .ok (some c) ∧
      (lexemes c.separator).map (·.kind) = [.word] ∧
      (ParsedScript.ofText (twoPrints c.separator) c.separator).script.batches.length = 2 := by
  intro c
  have hload : loadText "batch_separator = \"  run \"\n" = .ok (some c) := by decide +kernel
  obtain ⟨-, hword, hbatches⟩ := loaded_separator hload
  have hw := hword.mpr (by decide)
  exact ⟨hload, hw, hbatches hw⟩

/-- Not every separator that is loaded makes two batches.  `PRINT` is one word for the lexer and
makes four; `GO;` is two tokens, so that no line is a separator line and there is one batch. -/
theorem loaded_separator_others :
    let print : Config := { separator := "PRINT".toList }
    let other : Config := { separator := "GO;".toList }
    (loadText "batch_separator = \"PRINT\"\n" = .ok (some print) ∧
      (lexemes print.separator).map (·.kind) = [.word] ∧
      (ParsedScript.ofText (twoPrints print.separator) print.separator).script.batches.length =
        4) ∧
    (loadText "batch_separator = \"GO;\"\n" = .ok (some other) ∧
      (lexemes other.separator).map (·.kind) = [.word, .semicolon] ∧
      (ParsedScript.ofText (twoPrints other.separator) other.separator).script.batches.length =
        1) := by
  intro print other
  have hprint : (lexemes print.separator).map (·.kind) = [.word] := by decide +kernel
  refine ⟨⟨by decide +kernel, hprint, ?_⟩, by decide +kernel, by decide +kernel, ?_⟩
  · rw [length_batches_twoPrints hprint]
    rfl
  · have hlexemes : lexemes other.separator = [⟨.word, ['G', 'O']⟩, ⟨.semicolon, [';']⟩] := by
      decide +kernel
    have hkeyword : Keyword.ofWord? other.separator = none := by decide +kernel
    have hmarks : Mark.ofLexemes other.separator (lexemes other.separator) =
        [⟨.word, none, false, true, true⟩, ⟨.semicolon, none, false, false, false⟩] := by
      decide +kernel
    rw [Parse.length_batches_eq_lineCount (by simp [hkeyword]),
      cursor_twoPrints (by simp [hlexemes, Kind.unterminated]), hmarks]
    rfl

end Config

end SqlCaret
