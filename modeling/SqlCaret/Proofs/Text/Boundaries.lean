import Mathlib.Order.Bounds.Basic
import SqlCaret.Proofs.Text.Cut
import SqlCaret.Proofs.Text.Decoded

/-!
# Text — boundaries, byte by byte

Where characters meet, told of the bytes of a text.  The first byte of a character says that a
character begins and every other one that it goes on (`isContinuation_of_getElem?`), so `isCut`,
which looks at one byte, answers where two characters meet (`isCut_encode_iff`).

`lastCut?` goes back byte by byte until it is at such a place.  It never goes below the first byte,
and it stops at the last boundary that is no later than the byte that it began with
(`exists_lastCut?`): behind the characters that fit in front of that byte (`lastCut?_encode`).
-/

namespace SqlCaret.Utf8

/-- Whether bytes can be cut in front of byte `n` without parting a character. -/
def isCut (bytes : List UInt8) (n : Nat) : Bool :=
  n == 0 ||
    match bytes[n]? with
    | some b => !isContinuation b
    | none => n == bytes.length

/-- Goes back from byte `n` to where bytes can be cut; below the first byte there is nothing to go
back to. -/
def lastCut? (bytes : List UInt8) : (n : Nat) → Option Nat
  | 0 => if isCut bytes 0 then some 0 else none
  | n + 1 => if isCut bytes (n + 1) then some (n + 1) else lastCut? bytes n

/-! ### The bytes of a character -/

theorem length_encode (cs : List Char) : (encode cs).length = size cs := by
  induction cs with
  | nil => rfl
  | cons c cs ih =>
      rw [encode_cons, List.length_append, String.length_utf8EncodeChar, ih, size_cons]

theorem isContinuation_ofNat_lead {n : Nat} (h : n < 128 ∨ 192 ≤ n ∧ n < 256) :
    isContinuation (UInt8.ofNat n) = false := by
  simp only [isContinuation, UInt8.le_iff_toNat_le, Bool.and_eq_false_iff,
    decide_eq_false_iff_not, toNat_ofNat (show n < 256 by omega)]
  show ¬ 128 ≤ n ∨ ¬ n ≤ 191
  omega

theorem toNat_val_lt (c : Char) : c.val.toNat < 0x110000 := by
  rcases c.valid with h | h
  · exact Nat.lt_trans h (by decide)
  · exact h.2

/-- **All bytes of a character but the first go on with it.** -/
theorem isContinuation_of_getElem? {c : Char} {n : Nat} {b : UInt8}
    (h : (String.utf8EncodeChar c)[n]? = some b) : isContinuation b = decide (0 < n) := by
  have hval := toNat_val_lt c
  simp only [String.utf8EncodeChar] at h
  -- characters of one, two, three and four bytes
  split at h
  · match n with
    | 0 =>
        obtain rfl := Option.some.inj h
        exact isContinuation_ofNat_lead (.inl (by omega))
  split at h
  · match n with
    | 0 =>
        obtain rfl := Option.some.inj h
        exact isContinuation_ofNat_lead (.inr (by omega))
    | 1 =>
        obtain rfl := Option.some.inj h
        exact isContinuation_ofNat (by omega)
  split at h
  · match n with
    | 0 =>
        obtain rfl := Option.some.inj h
        exact isContinuation_ofNat_lead (.inr (by omega))
    | 1 | 2 =>
        obtain rfl := Option.some.inj h
        exact isContinuation_ofNat (by omega)
  · match n with
    | 0 =>
        obtain rfl := Option.some.inj h
        exact isContinuation_ofNat_lead (.inr (by omega))
    | 1 | 2 | 3 =>
        obtain rfl := Option.some.inj h
        exact isContinuation_ofNat (by omega)

/-- The first byte of a text begins a character. -/
theorem isContinuation_of_head? {cs : List Char} {b : UInt8} (h : (encode cs).head? = some b) :
    isContinuation b = false := by
  cases cs with
  | nil => cases h
  | cons c cs =>
      have hpos : 0 < (String.utf8EncodeChar c).length := by
        rw [String.length_utf8EncodeChar]
        exact c.utf8Size_pos
      rw [encode_cons, List.head?_eq_getElem?, List.getElem?_append_left hpos] at h
      exact isContinuation_of_getElem? h

/-! ### Cuts and boundaries -/

theorem isBoundary_cons {c : Char} {cs : List Char} {n : Nat} :
    IsBoundary (c :: cs) n ↔ n = 0 ∨ ∃ m, n = c.utf8Size + m ∧ IsBoundary cs m := by
  constructor
  · rintro ⟨a, b, htext, rfl⟩
    cases a with
    | nil => exact .inl rfl
    | cons d a =>
        obtain ⟨rfl, rfl⟩ := List.cons.inj htext
        exact .inr ⟨size a, rfl, a, b, rfl, rfl⟩
  · rintro (rfl | ⟨m, rfl, a, b, rfl, rfl⟩)
    · exact ⟨[], c :: cs, rfl, rfl⟩
    · exact ⟨c :: a, b, rfl, rfl⟩

theorem isCut_zero (bytes : List UInt8) : isCut bytes 0 = true := rfl

theorem isCut_inside {c : Char} {n : Nat} (hpos : 0 < n) (h : n < c.utf8Size) (bs : List UInt8) :
    isCut (String.utf8EncodeChar c ++ bs) n = false := by
  rw [← String.length_utf8EncodeChar] at h
  have hbyte := List.getElem?_eq_getElem h
  have hcontinues := isContinuation_of_getElem? hbyte
  rw [isCut, List.getElem?_append_left h, hbyte]
  simp [hcontinues, hpos, Nat.ne_of_gt hpos]

theorem isCut_behind (c : Char) (cs : List Char) (n : Nat) :
    isCut (String.utf8EncodeChar c ++ encode cs) (c.utf8Size + n) = isCut (encode cs) n := by
  have hpos := c.utf8Size_pos
  rw [← String.length_utf8EncodeChar] at hpos ⊢
  rw [isCut, List.getElem?_append_right (Nat.le_add_right _ _), Nat.add_sub_cancel_left,
    beq_false_of_ne (by omega), Bool.false_or]
  cases n with
  | zero =>
      -- right behind the character a byte is looked at that begins the next one
      rw [isCut_zero, ← List.head?_eq_getElem?]
      cases hhead : (encode cs).head? with
      | none => simp [List.head?_eq_none_iff.mp hhead]
      | some b => simp [isContinuation_of_head? hhead]
  | succ n =>
      rw [isCut, beq_false_of_ne (Nat.succ_ne_zero n), Bool.false_or]
      cases (encode cs)[n + 1]? with
      | none =>
          rw [List.length_append, Bool.eq_iff_iff, beq_iff_eq, beq_iff_eq, Nat.add_left_cancel_iff]
      | some b => rfl

/-- **Bytes can be cut where characters meet.** -/
theorem isCut_encode_iff {cs : List Char} {n : Nat} :
    isCut (encode cs) n = true ↔ IsBoundary cs n := by
  induction cs generalizing n with
  | nil =>
      have hnil : isCut (encode []) n = true ↔ n = 0 := by simp [isCut]
      rw [hnil]
      constructor
      · rintro rfl
        exact ⟨[], [], rfl, rfl⟩
      · rintro ⟨a, b, htext, rfl⟩
        rw [(List.append_eq_nil_iff.mp htext.symm).1, size_nil]
  | cons c cs ih =>
      rw [isBoundary_cons, encode_cons]
      rcases Nat.lt_or_ge n c.utf8Size with h | h
      · rcases Nat.eq_zero_or_pos n with rfl | hpos
        · simp [isCut_zero]
        · rw [isCut_inside hpos h]
          simp only [Bool.false_eq_true, false_iff]
          rintro (rfl | ⟨m, rfl, -⟩) <;> omega
      · obtain ⟨m, rfl⟩ := Nat.exists_eq_add_of_le h
        have hpos := c.utf8Size_pos
        rw [isCut_behind, ih]
        constructor
        · exact fun hm => .inr ⟨m, rfl, hm⟩
        · rintro (h | ⟨m', h, hm⟩)
          · omega
          · rwa [Nat.add_left_cancel h]

/-! ### The last boundary before a byte -/

/-- **Going back ends at the last cut.** -/
theorem exists_lastCut? (bytes : List UInt8) (n : Nat) :
    ∃ o, lastCut? bytes n = some o ∧ IsGreatest {m | isCut bytes m = true ∧ m ≤ n} o := by
  induction n with
  | zero =>
      refine ⟨0, ?_, ⟨isCut_zero bytes, Nat.le_refl 0⟩, fun m hm => hm.2⟩
      rw [lastCut?, if_pos (isCut_zero bytes)]
  | succ n ih =>
      rw [lastCut?]
      by_cases h : isCut bytes (n + 1) = true
      · exact ⟨n + 1, if_pos h, ⟨h, Nat.le_refl _⟩, fun m hm => hm.2⟩
      · obtain ⟨o, ho, ⟨hcut, hle⟩, hlast⟩ := ih
        refine ⟨o, by rw [if_neg h, ho], ⟨hcut, Nat.le_succ_of_le hle⟩, fun m hm => ?_⟩
        have hne : m ≠ n + 1 := by
          rintro rfl
          exact h hm.1
        exact hlast ⟨hm.1, Nat.le_of_lt_succ (Nat.lt_of_le_of_ne hm.2 hne)⟩

/-- The last boundary at or before a byte is behind what fits in front of the byte. -/
theorem isGreatest_size_takeBytes (cs : List Char) (n : Nat) :
    IsGreatest {m | IsBoundary cs m ∧ m ≤ min n (size cs)} (size (takeBytes n cs)) := by
  have htext := takeBytes_append_dropBytes n cs
  refine ⟨⟨⟨_, _, htext.symm, rfl⟩, Nat.le_min.mpr ⟨size_takeBytes_le n cs, ?_⟩⟩, ?_⟩
  · exact size_le_of_prefix ⟨_, htext⟩
  · rintro m ⟨⟨a, b, rfl, rfl⟩, hle⟩
    exact size_le_of_prefix (prefix_takeBytes (Nat.le_trans hle (Nat.min_le_left _ _)))

/-- The bytes of a text are cut where its characters are. -/
theorem lastCut?_encode (cs : List Char) (n : Nat) :
    lastCut? (encode cs) (min n (encode cs).length) = some (size (takeBytes n cs)) := by
  obtain ⟨o, ho, hgreatest⟩ := exists_lastCut? (encode cs) (min n (encode cs).length)
  simp only [isCut_encode_iff, length_encode] at hgreatest
  rw [ho, hgreatest.unique (isGreatest_size_takeBytes cs n)]

end SqlCaret.Utf8
