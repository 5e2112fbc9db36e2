import Mathlib.Tactic.Common
import SqlCaret.Json.Read
import SqlCaret.Json.Write

/-!
# JSON — written and read

Reading what `compact` writes gives the value back, with whatever stands behind it left over.  That
holds of each part: the digits of a natural number (`number?_digits`), the pieces of a string
(`pieces?_escape`), the elements of an array and the members of an object.

`Json.Faithful` are the values that can come back: a name or a string that spells no text is
written as the empty one, and a number that is not natural is kept as it is written, whatever that
is.  `Json.read?_compact` is the result for a whole text.
-/

namespace SqlCaret.Json

/-- A value that is written without loss. -/
inductive Faithful : Json → Prop
  | null : Faithful .null
  | bool (b : Bool) : Faithful (.bool b)
  | natural (n : Nat) : Faithful (.natural n)
  | string (cs : List Char) : Faithful (.string (some cs))
  | array {es : List Json} (h : ∀ e ∈ es, Faithful e) : Faithful (.array es)
  | object {ms : List (Spelled × Json)} (hnames : ∀ m ∈ ms, m.1.isSome)
      (h : ∀ m ∈ ms, Faithful m.2) : Faithful (.object ms)

/-- Not going on with a number. -/
def EndsNumber (cs : List Char) : Prop :=
  ∀ c ∈ cs.head?, c.isDigit = false ∧ c ≠ '.' ∧ c ≠ 'e' ∧ c ≠ 'E'

theorem endsNumber_nil : EndsNumber [] := nofun

/-- A number ends in front of what is no digit and begins no fraction and no exponent. -/
theorem endsNumber_cons {c : Char} (h : c.isDigit = false ∧ c ≠ '.' ∧ c ≠ 'e' ∧ c ≠ 'E')
    (cs : List Char) : EndsNumber (c :: cs) := by
  simpa [EndsNumber] using h

/-! ### Natural numbers -/

/-- The digits of a number are read as the number. -/
theorem naturalOf_digits (n : Nat) : naturalOf (digits n) = n := by
  have hstep : ∀ (cs : List Char) (m : Nat),
      cs.foldl (fun n c => n * 10 + (c.toNat - '0'.toNat)) m = Nat.ofDigitChars 10 cs m := by
    intro cs m
    simp only [Nat.ofDigitChars_eq_foldl, Nat.mul_comm]
  rw [naturalOf, hstep, digits, Nat.ofDigitChars_ten_toDigits]

/-- A natural number is written with digits only. -/
theorem isDigit_of_mem_digits {n : Nat} {c : Char} (h : c ∈ digits n) : c.isDigit = true :=
  Nat.isDigit_of_mem_toDigits (by decide) (by decide) h

theorem ne_of_isDigit {c d : Char} (hd : d.isDigit = true) (hc : c.isDigit = false) : d ≠ c := by
  rintro rfl
  exact Bool.noConfusion (hd.symm.trans hc)

/-- A digit is no white space, so none is skipped in front of a number. -/
theorem isBlank_of_isDigit {d : Char} (hd : d.isDigit = true) : isBlank d = false := by
  have hspace : d ≠ ' ' := ne_of_isDigit hd rfl
  have hline : d ≠ '\n' := ne_of_isDigit hd rfl
  have htab : d ≠ '\t' := ne_of_isDigit hd rfl
  have hreturn : d ≠ '\r' := ne_of_isDigit hd rfl
  simp [isBlank, hspace, hline, htab, hreturn]

theorem exists_digits_eq_cons (n : Nat) : ∃ d ds, digits n = d :: ds ∧ d.isDigit = true := by
  obtain ⟨d, ds, hdigits⟩ := List.exists_cons_of_ne_nil (Nat.toDigits_ne_nil (n := n) (b := 10))
  exact ⟨d, ds, hdigits, isDigit_of_mem_digits (n := n) (by rw [digits, hdigits]; simp)⟩

/-- Only zero begins with a zero. -/
theorem head?_digits_ne_zero {n : Nat} (h : 0 < n) : (digits n).head? ≠ some '0' := by
  induction n using Nat.strongRecOn with
  | ind n ih =>
      rcases Nat.lt_or_ge n 10 with hlt | hge
      · rw [digits, Nat.toDigits_of_lt_base hlt, List.head?_cons]
        simp only [ne_eq, Option.some.injEq, Nat.digitChar_eq_zero]
        omega
      · have hpos : 0 < n / 10 := by omega
        have htens := ih (n / 10) (by omega) hpos
        rw [digits, Nat.toDigits_of_base_le (by decide) hge,
          List.head?_append, Option.or_of_isSome (by simp [Nat.toDigits_ne_nil])]
        exact htens

/-- Digits are read up to what ends the number. -/
theorem spanDigits_append {ds cs : List Char} (hds : ∀ c ∈ ds, c.isDigit = true)
    (hcs : EndsNumber cs) : spanDigits (ds ++ cs) = (ds, cs) := by
  have htake : cs.takeWhile Char.isDigit = [] := by
    cases cs with
    | nil => rfl
    | cons c cs => simp [(hcs c rfl).1]
  have hdrop : cs.dropWhile Char.isDigit = cs := by
    cases cs with
    | nil => rfl
    | cons c cs => simp [(hcs c rfl).1]
  rw [spanDigits, List.takeWhile_append_of_pos hds, List.dropWhile_append_of_pos hds, htake, hdrop,
    List.append_nil]

/-- The digits are read as they are: none begins with a zero too many. -/
theorem integer?_digits (n : Nat) {cs : List Char} (hcs : EndsNumber cs) :
    integer? (digits n ++ cs) = some (digits n, cs) := by
  have hspan := spanDigits_append (fun c => isDigit_of_mem_digits (n := n)) hcs
  simp only [integer?, hspan]
  split
  case h_1 hnil => exact absurd hnil Nat.toDigits_ne_nil
  case h_2 hzero =>
    -- more than one digit, and the first is a zero
    rcases Nat.eq_zero_or_pos n with rfl | hpos
    · simp [digits] at hzero
    · exact absurd (by rw [hzero]; rfl) (head?_digits_ne_zero hpos)
  case h_3 => rfl

/-- **A natural number is read back.** -/
theorem number?_digits (n : Nat) {cs : List Char} (hcs : EndsNumber cs) :
    number? (digits n ++ cs) = some (.natural n, cs) := by
  have hfraction : fraction? cs = some ([], cs) := by
    unfold fraction?
    split
    case h_1 => exact absurd rfl (hcs _ rfl).2.1
    case h_2 => rfl
  have hexponent : exponent? cs = some ([], cs) := by
    cases cs with
    | nil => rfl
    | cons c cs =>
        obtain ⟨-, -, he, hE⟩ := hcs c rfl
        simp [exponent?, he, hE]
  obtain ⟨d, ds, hdigits, hd⟩ := exists_digits_eq_cons n
  have hminus : d ≠ '-' := ne_of_isDigit hd rfl
  have hinteger := integer?_digits n hcs
  have hnatural := naturalOf_digits n
  simp only [hdigits, List.cons_append] at hinteger hnatural ⊢
  unfold number?
  split
  case h_1 _ _ hsign =>
    split at hsign
    case h_1 heq => exact absurd (List.cons.inj heq).1 hminus
    case h_2 =>
      obtain ⟨rfl, rfl⟩ := Prod.mk.inj hsign
      simp [hinteger, hfraction, hexponent, hnatural]

/-! ### Strings -/

/-- The digits of an escape are read as they are written. -/
theorem hexValue?_hexDigit {n : Nat} (h : n < 16) : hexValue? (hexDigit n) = some n := by
  have hall : ∀ n : Fin 16, hexValue? (hexDigit n) = some n.val := by decide
  exact hall ⟨n, h⟩

/-- The piece that a written character is read as. -/
def pieceOf (c : Char) : Piece :=
  if c.toNat < 0x20 ∧ ¬ (c = '\x08' ∨ c = '\x0c' ∨ c = '\n' ∨ c = '\r' ∨ c = '\t') then
    .code c.toNat
  else .char c

/-- Each character is read as one piece, however it is written. -/
theorem pieces?_escape (c : Char) (cs : List Char) :
    pieces? (escape c ++ cs) = (pieces? cs).map fun r => (pieceOf c :: r.1, r.2) := by
  by_cases hnamed : c = '\x08' ∨ c = '\x0c' ∨ c = '\n' ∨ c = '\r' ∨ c = '\t'
  · rcases hnamed with rfl | rfl | rfl | rfl | rfl <;> cases h : pieces? cs <;>
      simp [escape, pieces?, escaped?, pieceOf, h]
  by_cases hquote : c = '"' ∨ c = '\\'
  · rcases hquote with rfl | rfl <;> cases h : pieces? cs <;>
      simp [escape, pieces?, escaped?, pieceOf, h]
  simp only [not_or] at hnamed hquote
  by_cases hcontrol : c.toNat < 0x20
  · have hhigh := hexValue?_hexDigit (n := c.toNat / 16) (by omega)
    have hlow := hexValue?_hexDigit (n := c.toNat % 16) (by omega)
    have hzero : hexValue? '0' = some 0 := rfl
    have hvalue : c.toNat / 16 * 16 + c.toNat % 16 = c.toNat := by omega
    cases h : pieces? cs <;>
      simp [escape, pieces?, pieceOf, hnamed, hquote, hcontrol, hexValue4?, hhigh, hlow, hzero,
        hvalue, h]
  · have hescape : escape c = [c] := by simp [escape, hnamed, hquote, hcontrol]
    have hpiece : pieceOf c = .char c := by simp [pieceOf, hcontrol]
    rw [hescape, hpiece, List.singleton_append, pieces?.eq_def]
    cases h : pieces? cs <;> simp [hquote, hcontrol, h]

/-- The pieces of a written string. -/
theorem pieces?_quote (cs rest : List Char) :
    pieces? (cs.flatMap escape ++ '"' :: rest) = some (cs.map pieceOf, rest) := by
  induction cs with
  | nil => simp [pieces?]
  | cons c cs ih =>
      rw [List.flatMap_cons, List.append_assoc, pieces?_escape, ih]
      rfl

/-- The pieces of a text make the text again. -/
theorem joinPieces?_pieceOf (cs : List Char) : joinPieces? (cs.map pieceOf) = some cs := by
  induction cs with
  | nil => rfl
  | cons c cs ih =>
      rw [List.map_cons, pieceOf]
      split
      case isTrue h =>
        have hlow : ¬ (0xD800 ≤ c.toNat ∧ c.toNat < 0xDC00) := by omega
        have hhigh : ¬ (0xDC00 ≤ c.toNat ∧ c.toNat < 0xE000) := by omega
        unfold joinPieces?
        simp [hlow, hhigh, ih]
      case isFalse => simp [joinPieces?, ih]

/-! ### Values -/

/-- Reading gives the value back. -/
def ReadsBack (v : Json) : Prop :=
  ∀ (n : Nat) (rest : List Char), v.compact.length < n → EndsNumber rest →
    valueWithin? n (v.compact ++ rest) = some (v, rest)

/-- A value is read back if it is with as many steps as it has characters. -/
theorem ReadsBack.of_succ {v : Json}
    (h : ∀ (n : Nat) (rest : List Char), v.compact.length ≤ n → EndsNumber rest →
      valueWithin? (n + 1) (v.compact ++ rest) = some (v, rest)) : ReadsBack v := by
  intro n rest hn hrest
  obtain ⟨n, rfl⟩ : ∃ m, n = m + 1 := ⟨n - 1, by omega⟩
  exact h n rest (by omega) hrest

theorem skipBlanks_cons {c : Char} (h : isBlank c = false) (cs : List Char) :
    skipBlanks (c :: cs) = c :: cs := by
  rw [skipBlanks, List.dropWhile_cons_of_neg (by simp [h])]

/-- A comma stands between two elements. -/
theorem elements_cons_cons (e e' : Json) (es : List Json) :
    compact.elements (e :: e' :: es) = e.compact ++ ',' :: compact.elements (e' :: es) := by
  rw [compact.elements]
  nofun

theorem members_cons_cons (k : Spelled) (v : Json) (m : Spelled × Json)
    (ms : List (Spelled × Json)) :
    compact.members ((k, v) :: m :: ms) =
      quote k ++ ':' :: (v.compact ++ ',' :: compact.members (m :: ms)) := by
  rw [compact.members]
  nofun

/-- Written elements and the closing bracket. -/
theorem elementsWithin?_elements {es : List Json} (h : ∀ e ∈ es, ReadsBack e) (hne : es ≠ [])
    {n : Nat} (rest : List Char) (hn : (compact.elements es).length + 1 < n) :
    elementsWithin? n (compact.elements es ++ ']' :: rest) = some (es, rest) := by
  induction es generalizing n with
  | nil => exact absurd rfl hne
  | cons e es ih =>
      obtain ⟨n, rfl⟩ : ∃ m, n = m + 1 := ⟨n - 1, by omega⟩
      rw [List.forall_mem_cons] at h
      cases es with
      | nil =>
          rw [compact.elements] at hn ⊢
          have he := h.1 n (']' :: rest) (by omega) (endsNumber_cons (by decide) rest)
          simp [elementsWithin?, he, skipBlanks_cons (c := ']') rfl]
      | cons e' es =>
          rw [elements_cons_cons] at hn ⊢
          simp only [List.length_append, List.length_cons] at hn
          have he := h.1 n (',' :: (compact.elements (e' :: es) ++ ']' :: rest)) (by omega)
            (endsNumber_cons (by decide) _)
          have hes := ih h.2 (by simp) (n := n) (by omega)
          simp [elementsWithin?, he, hes, skipBlanks_cons (c := ',') rfl]

/-- The last member: its name and its value, and then the closing brace. -/
theorem membersWithin?_last {n : Nat} {cs rest : List Char} {v : Json} (k : List Char)
    (hv : valueWithin? n cs = some (v, '\x7d' :: rest)) :
    membersWithin? (n + 1) (quote (some k) ++ ':' :: cs) = some ([(some k, v)], rest) := by
  have hpieces := pieces?_quote k (':' :: cs)
  simp [membersWithin?, quote, hpieces, joinPieces?_pieceOf, hv, skipBlanks_cons (c := '"') rfl,
    skipBlanks_cons (c := ':') rfl, skipBlanks_cons (c := '\x7d') rfl]

/-- A member and those behind its comma. -/
theorem membersWithin?_more {n : Nat} {cs rest rest' : List Char} {v : Json}
    {ms : List (Spelled × Json)} (k : List Char)
    (hv : valueWithin? n cs = some (v, ',' :: rest))
    (hms : membersWithin? n rest = some (ms, rest')) :
    membersWithin? (n + 1) (quote (some k) ++ ':' :: cs) = some ((some k, v) :: ms, rest') := by
  have hpieces := pieces?_quote k (':' :: cs)
  simp [membersWithin?, quote, hpieces, joinPieces?_pieceOf, hv, hms,
    skipBlanks_cons (c := '"') rfl, skipBlanks_cons (c := ':') rfl, skipBlanks_cons (c := ',') rfl]

/-- Written members and the closing brace. -/
theorem membersWithin?_members {ms : List (Spelled × Json)} (hnames : ∀ m ∈ ms, m.1.isSome)
    (h : ∀ m ∈ ms, ReadsBack m.2) (hne : ms ≠ []) {n : Nat} (rest : List Char)
    (hn : (compact.members ms).length + 1 < n) :
    membersWithin? n (compact.members ms ++ '\x7d' :: rest) = some (ms, rest) := by
  induction ms generalizing n with
  | nil => exact absurd rfl hne
  | cons m ms ih =>
      obtain ⟨n, rfl⟩ : ∃ m, n = m + 1 := ⟨n - 1, by omega⟩
      obtain ⟨k, v⟩ := m
      rw [List.forall_mem_cons] at h hnames
      obtain ⟨hv, h⟩ := h
      obtain ⟨hk, hnames⟩ := hnames
      obtain ⟨k, rfl⟩ := Option.isSome_iff_exists.mp hk
      cases ms with
      | nil =>
          rw [compact.members] at hn ⊢
          rw [List.append_assoc, List.cons_append]
          simp only [List.length_append, List.length_cons] at hn
          exact membersWithin?_last k
            (hv n _ (by dsimp only; omega) (endsNumber_cons (by decide) _))
      | cons m ms =>
          rw [members_cons_cons] at hn ⊢
          simp only [List.append_assoc, List.cons_append]
          simp only [List.length_append, List.length_cons] at hn
          exact membersWithin?_more k
            (hv n _ (by dsimp only; omega) (endsNumber_cons (by decide) _))
            (ih hnames h (by simp) (by omega))

/-- What a written value begins with. -/
theorem exists_compact_eq_cons {v : Json} (h : Faithful v) :
    ∃ c cs, v.compact = c :: cs ∧ isBlank c = false ∧ c ≠ ']' := by
  cases h with
  | null => exact ⟨_, _, by rw [compact]; rfl, by decide⟩
  | bool b => cases b <;> exact ⟨_, _, by rw [compact]; rfl, by decide⟩
  | natural n =>
      obtain ⟨d, ds, hdigits, hd⟩ := exists_digits_eq_cons n
      exact ⟨d, ds, by rw [compact, hdigits], isBlank_of_isDigit hd, ne_of_isDigit hd rfl⟩
  | string cs => exact ⟨_, _, by rw [compact, quote], by decide⟩
  | array h => exact ⟨_, _, by rw [compact], by decide⟩
  | object hnames h => exact ⟨_, _, by rw [compact], by decide⟩

/-- Elements begin with no white space and do not end the array at once. -/
theorem exists_elements_eq_cons {e : Json} (h : Faithful e) (es : List Json) :
    ∃ c cs, compact.elements (e :: es) = c :: cs ∧ isBlank c = false ∧ c ≠ ']' := by
  obtain ⟨c, cs, hcs, hblank, hclose⟩ := exists_compact_eq_cons h
  cases es with
  | nil => exact ⟨c, cs, by rw [compact.elements, hcs], hblank, hclose⟩
  | cons e' es =>
      exact ⟨c, _, by rw [elements_cons_cons, hcs, List.cons_append], hblank, hclose⟩

/-- Members begin with a name. -/
theorem exists_members_eq_cons (m : Spelled × Json) (ms : List (Spelled × Json)) :
    ∃ cs, compact.members (m :: ms) = '"' :: cs := by
  obtain ⟨k, v⟩ := m
  cases ms with
  | nil => exact ⟨_, by rw [compact.members, quote, List.cons_append]⟩
  | cons m ms => exact ⟨_, by rw [members_cons_cons, quote, List.cons_append]⟩

/-- A value that begins with a digit is a number. -/
theorem valueWithin?_digit (n : Nat) {d : Char} (hd : d.isDigit = true) (cs : List Char) :
    valueWithin? (n + 1) (d :: cs) = number? (d :: cs) := by
  rw [valueWithin?, skipBlanks_cons (isBlank_of_isDigit hd)]
  split
  case h_1 heq => exact absurd (List.cons.inj heq).1 (ne_of_isDigit hd rfl)
  case h_2 heq => exact absurd (List.cons.inj heq).1 (ne_of_isDigit hd rfl)
  case h_3 heq => exact absurd (List.cons.inj heq).1 (ne_of_isDigit hd rfl)
  case h_4 =>
    have hn : d ≠ 'n' := ne_of_isDigit hd rfl
    have ht : d ≠ 't' := ne_of_isDigit hd rfl
    have hf : d ≠ 'f' := ne_of_isDigit hd rfl
    simp [afterWord?, hn.symm, ht.symm, hf.symm]

/-- **Numbers are read back.** -/
theorem readsBack_natural (n : Nat) : ReadsBack (.natural n) := by
  refine .of_succ fun depth rest hdepth hrest => ?_
  have hnumber := number?_digits n hrest
  obtain ⟨d, ds, hdigits, hd⟩ := exists_digits_eq_cons n
  rw [compact]
  rw [hdigits, List.cons_append] at hnumber ⊢
  rw [valueWithin?_digit depth hd, hnumber]

/-- **Strings are read back.** -/
theorem readsBack_string (cs : List Char) : ReadsBack (.string (some cs)) := by
  refine .of_succ fun depth rest hdepth hrest => ?_
  have hpieces := pieces?_quote cs rest
  rw [compact, quote]
  simp [valueWithin?, skipBlanks_cons (c := '"') rfl, hpieces, joinPieces?_pieceOf]

/-- **Arrays are read back** if their elements are. -/
theorem readsBack_array {es : List Json} (hfaithful : ∀ e ∈ es, Faithful e)
    (h : ∀ e ∈ es, ReadsBack e) : ReadsBack (.array es) := by
  refine .of_succ fun depth rest hdepth hrest => ?_
  rw [compact] at hdepth ⊢
  simp only [List.length_cons, List.length_append, List.length_nil] at hdepth
  rw [List.cons_append, List.append_assoc, List.singleton_append, valueWithin?,
    skipBlanks_cons (c := '[') rfl]
  cases es with
  | nil => simp [compact.elements, skipBlanks_cons (c := ']') rfl]
  | cons e es =>
      have helements := elementsWithin?_elements h (by simp) (n := depth) rest (by omega)
      obtain ⟨c, cs, hcs, hblank, hclose⟩ := exists_elements_eq_cons (hfaithful e (by simp)) es
      rw [hcs, List.cons_append] at helements ⊢
      simp [skipBlanks_cons hblank, hclose, helements]

/-- **Objects are read back** if their members are, in order and with repeated names. -/
theorem readsBack_object {ms : List (Spelled × Json)} (hnames : ∀ m ∈ ms, m.1.isSome)
    (h : ∀ m ∈ ms, ReadsBack m.2) : ReadsBack (.object ms) := by
  refine .of_succ fun depth rest hdepth hrest => ?_
  rw [compact] at hdepth ⊢
  simp only [List.length_cons, List.length_append, List.length_nil] at hdepth
  rw [List.cons_append, List.append_assoc, List.singleton_append, valueWithin?,
    skipBlanks_cons (c := '\x7b') rfl]
  cases ms with
  | nil => simp [compact.members, skipBlanks_cons (c := '\x7d') rfl]
  | cons m ms =>
      have hmembers := membersWithin?_members hnames h (by simp) (n := depth) rest (by omega)
      obtain ⟨cs, hcs⟩ := exists_members_eq_cons m ms
      rw [hcs, List.cons_append] at hmembers ⊢
      simp [skipBlanks_cons (c := '"') rfl, hmembers]

/-- **Every faithful value is read back**, by what it is made of. -/
theorem readsBack {v : Json} (h : Faithful v) : ReadsBack v := by
  induction h with
  | null => exact .of_succ fun _ _ _ _ => rfl
  | bool b => cases b <;> exact .of_succ fun _ _ _ _ => rfl
  | natural n => exact readsBack_natural n
  | string cs => exact readsBack_string cs
  | array h ih => exact readsBack_array h ih
  | object hnames h ih => exact readsBack_object hnames ih

/-- **What is written is read back.** -/
theorem read?_compact {v : Json} (h : Faithful v) : read? v.compact = some (v, []) := by
  have hread := readsBack h (2 * v.compact.length + 2) [] (by omega) endsNumber_nil
  rwa [List.append_nil] at hread

end SqlCaret.Json
