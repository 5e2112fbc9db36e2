import SqlCaret.Text.Utf8

/-!
# Text — decoded

The bytes of a text that was read from bytes are those bytes (`encode_of_decode`).  Each of the
sequences that a character is read from is one that a character has: no number is spelled longer
than it must be, none is a surrogate's, and none is past the last character.  And the bytes of a
text spell it (`decode_encode`).
-/

namespace SqlCaret.Utf8

@[simp] theorem encode_nil : encode [] = [] := rfl

/-- Each character is encoded on its own. -/
@[simp] theorem encode_cons (c : Char) (cs : List Char) :
    encode (c :: cs) = String.utf8EncodeChar c ++ encode cs := List.flatMap_cons ..

/-- Texts are encoded one behind the other. -/
theorem encode_append (a b : List Char) : encode (a ++ b) = encode a ++ encode b :=
  List.flatMap_append ..

/-! ### One character -/

/-- The bytes that go on with a character, as numbers. -/
theorem bounds_of_isContinuation {b : UInt8} (h : isContinuation b = true) :
    0x80 ≤ b.toNat ∧ b.toNat ≤ 0xBF := by
  simpa [isContinuation, UInt8.le_iff_toNat_le] using h

/-- Which bytes may come second depends on the first: four of the leads narrow the range. -/
theorem bounds_of_secondFits {a b : UInt8} (h : secondFits a b = true) :
    0x80 ≤ b.toNat ∧ b.toNat ≤ 0xBF ∧ (a.toNat = 0xE0 → 0xA0 ≤ b.toNat) ∧
      (a.toNat = 0xED → b.toNat ≤ 0x9F) ∧ (a.toNat = 0xF0 → 0x90 ≤ b.toNat) ∧
      (a.toNat = 0xF4 → b.toNat ≤ 0x8F) := by
  simp only [secondFits, isContinuation, ← UInt8.toNat_inj] at h
  repeat' split at h
  all_goals
    simp [UInt8.le_iff_toNat_le] at *
    omega

/-- The bytes of the character of a number. -/
theorem utf8EncodeChar_ofNat {n : Nat} (h : n.isValidChar) :
    String.utf8EncodeChar (Char.ofNat n) =
      if n ≤ 127 then [UInt8.ofNat n]
      else if n ≤ 2047 then [UInt8.ofNat (n / 64 % 32 + 192), UInt8.ofNat (n % 64 + 128)]
      else if n ≤ 65535 then
        [UInt8.ofNat (n / 4096 % 16 + 224), UInt8.ofNat (n / 64 % 64 + 128),
          UInt8.ofNat (n % 64 + 128)]
      else
        [UInt8.ofNat (n / 262144 % 8 + 240), UInt8.ofNat (n / 4096 % 64 + 128),
          UInt8.ofNat (n / 64 % 64 + 128), UInt8.ofNat (n % 64 + 128)] := by
  have hval : (Char.ofNat n).val.toNat = n := by
    rw [Char.ofNat, dif_pos h]
    rfl
  rw [String.utf8EncodeChar, hval]

/-- A character of one byte is that byte. -/
theorem utf8EncodeChar_of_lt {c : Char} (h : c.toNat < 0x80) :
    String.utf8EncodeChar c = [c.toUInt8] := by
  have hval : c.val.toNat ≤ 127 := Nat.le_of_lt_succ h
  simp only [String.utf8EncodeChar, hval, if_true]
  rfl

/-- The bytes of any other character are past those. -/
theorem le_of_mem_utf8EncodeChar {c : Char} (h : 0x80 ≤ c.toNat) :
    ∀ b ∈ String.utf8EncodeChar c, 0x80 ≤ b.toNat := by
  have hval : ¬ c.val.toNat ≤ 127 := Nat.not_le_of_lt h
  intro b hb
  simp only [String.utf8EncodeChar, hval, if_false] at hb
  repeat' split at hb
  all_goals
    simp only [List.mem_cons, List.not_mem_nil, or_false] at hb
    rcases hb with rfl | rfl | rfl | rfl <;> simp only [UInt8.toNat_ofNat'] <;> omega

/-- An ASCII character is its byte. -/
theorem toNat_toUInt8 {c : Char} (h : c.toNat < 0x80) : c.toUInt8.toNat = c.toNat := by
  rw [Char.toUInt8, UInt32.toNat_toUInt8]
  exact Nat.mod_eq_of_lt (Nat.lt_trans h (by decide))

/-- A character of one byte has that byte to itself. -/
theorem ne_toUInt8_of_mem {c d : Char} (hd : d.toNat < 0x80) (hne : c ≠ d) :
    ∀ b ∈ String.utf8EncodeChar c, b ≠ d.toUInt8 := by
  rintro b hb rfl
  rcases Nat.lt_or_ge c.toNat 0x80 with hc | hc
  · rw [utf8EncodeChar_of_lt hc, List.mem_singleton] at hb
    refine hne (Char.toNat_inj.mp ?_)
    rw [← toNat_toUInt8 hc, ← toNat_toUInt8 hd, hb]
  · have hle := le_of_mem_utf8EncodeChar hc _ hb
    rw [toNat_toUInt8 hd] at hle
    omega

theorem utf8Size_of_lt {c : Char} (h : c.toNat < 0x80) : c.utf8Size = 1 := by
  rw [← String.length_utf8EncodeChar, utf8EncodeChar_of_lt h]
  rfl

/-- In front of a text, an ASCII character is its one byte. -/
theorem encode_cons_of_lt {c : Char} (h : c.toNat < 0x80) (cs : List Char) :
    encode (c :: cs) = c.toUInt8 :: encode cs := by
  rw [encode_cons, utf8EncodeChar_of_lt h, List.singleton_append]

/-- The first byte tells whether the first character is a certain one of one byte. -/
theorem head?_encode_iff {d : Char} (hd : d.toNat < 0x80) {cs : List Char} :
    (encode cs).head? = some d.toUInt8 ↔ cs.head? = some d := by
  cases cs with
  | nil => simp
  | cons c cs =>
      rw [List.head?_cons, Option.some.injEq]
      constructor
      · intro h
        refine Decidable.byContradiction fun hne => ?_
        obtain ⟨b, bs, hbytes⟩ := List.exists_cons_of_length_pos
          (by rw [String.length_utf8EncodeChar]; exact c.utf8Size_pos)
        rw [encode_cons, hbytes, List.cons_append, List.head?_cons, Option.some.injEq] at h
        exact ne_toUInt8_of_mem hd hne b (by simp [hbytes]) h
      · rintro rfl
        rw [encode_cons_of_lt hd, List.head?_cons]

theorem ofNat_eq {n : Nat} {b : UInt8} (h : n = b.toNat) : UInt8.ofNat n = b := by
  rw [h, UInt8.ofNat_toNat]

section
variable {a b c d : UInt8}

/-- The character of a byte below `0x80` is encoded as that byte. -/
theorem encode_one (ha : a < 0x80) : String.utf8EncodeChar (Char.ofNat a.toNat) = [a] := by
  have ha : a.toNat < 0x80 := UInt8.lt_iff_toNat_lt.mp ha
  rw [utf8EncodeChar_ofNat (.inl (by omega)), if_pos (by omega), UInt8.ofNat_toNat]

/-- The leads `0xC0` and `0xC1` would be overlong forms, and are left out. -/
theorem encode_two (ha : 0xC2 ≤ a) (ha' : a ≤ 0xDF) (hb : isContinuation b = true) :
    String.utf8EncodeChar (scalar (a.toNat - 0xC0) [b]) = [a, b] := by
  have ha : 0xC2 ≤ a.toNat := UInt8.le_iff_toNat_le.mp ha
  have ha' : a.toNat ≤ 0xDF := UInt8.le_iff_toNat_le.mp ha'
  obtain ⟨hb, hb'⟩ := bounds_of_isContinuation hb
  simp only [scalar, List.foldl_cons, List.foldl_nil]
  rw [utf8EncodeChar_ofNat (.inl (by omega)), if_neg (by omega), if_pos (by omega),
    ofNat_eq (b := a) (by omega), ofNat_eq (b := b) (by omega)]

/-- Behind `0xE0` the second byte keeps overlong forms out, behind `0xED` the surrogates. -/
theorem encode_three (ha : 0xE0 ≤ a) (ha' : a ≤ 0xEF) (hb : secondFits a b = true)
    (hc : isContinuation c = true) :
    String.utf8EncodeChar (scalar (a.toNat - 0xE0) [b, c]) = [a, b, c] := by
  have ha : 0xE0 ≤ a.toNat := UInt8.le_iff_toNat_le.mp ha
  have ha' : a.toNat ≤ 0xEF := UInt8.le_iff_toNat_le.mp ha'
  obtain ⟨hb, hb', hlong, hsurrogate, -, -⟩ := bounds_of_secondFits hb
  obtain ⟨hc, hc'⟩ := bounds_of_isContinuation hc
  simp only [scalar, List.foldl_cons, List.foldl_nil]
  rw [utf8EncodeChar_ofNat (by unfold Nat.isValidChar; omega), if_neg (by omega),
    if_neg (by omega), if_pos (by omega), ofNat_eq (b := a) (by omega),
    ofNat_eq (b := b) (by omega), ofNat_eq (b := c) (by omega)]

/-- Behind `0xF0` the second byte keeps overlong forms out, behind `0xF4` what is no character. -/
theorem encode_four (ha : 0xF0 ≤ a) (ha' : a ≤ 0xF4) (hb : secondFits a b = true)
    (hc : isContinuation c = true) (hd : isContinuation d = true) :
    String.utf8EncodeChar (scalar (a.toNat - 0xF0) [b, c, d]) = [a, b, c, d] := by
  have ha : 0xF0 ≤ a.toNat := UInt8.le_iff_toNat_le.mp ha
  have ha' : a.toNat ≤ 0xF4 := UInt8.le_iff_toNat_le.mp ha'
  obtain ⟨hb, hb', -, -, hlong, hlast⟩ := bounds_of_secondFits hb
  obtain ⟨hc, hc'⟩ := bounds_of_isContinuation hc
  obtain ⟨hd, hd'⟩ := bounds_of_isContinuation hd
  simp only [scalar, List.foldl_cons, List.foldl_nil]
  rw [utf8EncodeChar_ofNat (by unfold Nat.isValidChar; omega), if_neg (by omega),
    if_neg (by omega), if_neg (by omega), ofNat_eq (b := a) (by omega),
    ofNat_eq (b := b) (by omega), ofNat_eq (b := c) (by omega), ofNat_eq (b := d) (by omega)]

end

/-! ### Whole texts -/

/-- One character more, and the bytes that it has. -/
theorem encode_of_map {read : Except Fault (List Char)} {c : Char} {text : List Char}
    {front rest : List UInt8} (h : read.map (c :: ·) = .ok text)
    (hc : String.utf8EncodeChar c = front)
    (hrest : ∀ {cs : List Char}, read = .ok cs → encode cs = rest) :
    encode text = front ++ rest := by
  cases read with
  | error e => cases h
  | ok cs =>
      cases h
      rw [encode_cons, hc, hrest rfl]

/-- **What is decoded is encoded as the bytes it came from**, so that no two rows of bytes are one
text. -/
theorem encode_of_decodeFrom {index : Nat} {bytes : List UInt8} {text : List Char}
    (h : decodeFrom index bytes = .ok text) : encode text = bytes := by
  fun_induction decodeFrom index bytes generalizing text with
  | case1 =>
      cases h
      rfl
  | case2 _ a rest ha ih => exact encode_of_map h (encode_one ha) ih
  | case4 _ a _ ha b rest hb ih =>
      rw [Bool.and_eq_true, decide_eq_true_eq, decide_eq_true_eq] at ha
      exact encode_of_map h (encode_two ha.1 ha.2 hb) ih
  | case8 _ a _ _ ha b hb c rest hc ih =>
      rw [Bool.and_eq_true, decide_eq_true_eq, decide_eq_true_eq] at ha
      exact encode_of_map h (encode_three ha.1 ha.2 hb hc) ih
  | case14 _ a _ _ _ ha b hb c hc d rest hd ih =>
      rw [Bool.and_eq_true, decide_eq_true_eq, decide_eq_true_eq] at ha
      exact encode_of_map h (encode_four ha.1 ha.2 hb hc hd) ih
  -- anything else is refused
  | _ => cases h

/-- **Reading loses nothing**: a text that bytes spell has just these bytes. -/
theorem encode_of_decode {bytes : List UInt8} {text : List Char} (h : decode bytes = .ok text) :
    encode text = bytes := encode_of_decodeFrom h

/-! ### The way back -/

theorem toNat_ofNat {n : Nat} (h : n < 256) : (UInt8.ofNat n).toNat = n := by
  rw [UInt8.toNat_ofNat']
  exact Nat.mod_eq_of_lt h

/-- Six bits with the mark of a continuation in front are a continuation. -/
theorem isContinuation_ofNat {n : Nat} (h : n < 64) :
    isContinuation (UInt8.ofNat (n + 128)) = true := by
  simp only [isContinuation, UInt8.le_iff_toNat_le, Bool.and_eq_true, decide_eq_true_eq,
    toNat_ofNat (show n + 128 < 256 by omega)]
  exact ⟨Nat.le_add_left 128 n, show n + 128 ≤ 191 by omega⟩

/-- A byte fits if it is in the range that the first byte leaves for it. -/
theorem secondFits_of_bounds {a b : UInt8} (hb : 0x80 ≤ b.toNat ∧ b.toNat ≤ 0xBF)
    (hE0 : a.toNat = 0xE0 → 0xA0 ≤ b.toNat) (hED : a.toNat = 0xED → b.toNat ≤ 0x9F)
    (hF0 : a.toNat = 0xF0 → 0x90 ≤ b.toNat) (hF4 : a.toNat = 0xF4 → b.toNat ≤ 0x8F) :
    secondFits a b = true := by
  simp only [secondFits, isContinuation, ← UInt8.toNat_inj]
  repeat' split
  all_goals
    simp [UInt8.le_iff_toNat_le] at *
    omega

theorem lead_not_lt {a : UInt8} (h : 0x80 ≤ a.toNat) : ¬ a < 0x80 :=
  fun hlt => Nat.not_lt.mpr h (UInt8.lt_iff_toNat_lt.mp hlt)

/-- A range of bytes is a range of numbers. -/
theorem between_iff {a lo hi : UInt8} :
    (lo ≤ a && a ≤ hi) = true ↔ lo.toNat ≤ a.toNat ∧ a.toNat ≤ hi.toNat := by
  simp [UInt8.le_iff_toNat_le]

section
variable {a b c d : UInt8} (index : Nat) (rest : List UInt8)

/-- An ASCII byte is decoded on its own. -/
theorem decodeFrom_one (ha : a.toNat < 0x80) :
    decodeFrom index (a :: rest) = (decodeFrom (index + 1) rest).map (Char.ofNat a.toNat :: ·) := by
  have hlead : a < 0x80 := UInt8.lt_iff_toNat_lt.mpr ha
  rw [decodeFrom.eq_def]
  simp only [hlead, if_true]

/-- Two bytes that fit are taken together. -/
theorem decodeFrom_two (ha : 0xC2 ≤ a.toNat ∧ a.toNat ≤ 0xDF) (hb : isContinuation b = true) :
    decodeFrom index (a :: b :: rest) =
      (decodeFrom (index + 2) rest).map (scalar (a.toNat - 0xC0) [b] :: ·) := by
  have hone : ¬ a < 0x80 := lead_not_lt (by omega)
  have htwo : (0xC2 ≤ a && a ≤ 0xDF) = true := between_iff.mpr ha
  rw [decodeFrom.eq_def]
  simp only [hone, htwo, hb, if_true, if_false]

theorem decodeFrom_three (ha : 0xE0 ≤ a.toNat ∧ a.toNat ≤ 0xEF) (hb : secondFits a b = true)
    (hc : isContinuation c = true) :
    decodeFrom index (a :: b :: c :: rest) =
      (decodeFrom (index + 3) rest).map (scalar (a.toNat - 0xE0) [b, c] :: ·) := by
  have hone : ¬ a < 0x80 := lead_not_lt (by omega)
  have htwo : ¬ (0xC2 ≤ a && a ≤ 0xDF) = true :=
    fun h => absurd (between_iff.mp h).2 (Nat.not_le.mpr (Nat.lt_of_lt_of_le (by decide) ha.1))
  have hthree : (0xE0 ≤ a && a ≤ 0xEF) = true := between_iff.mpr ha
  rw [decodeFrom.eq_def]
  simp only [hone, htwo, hthree, hb, hc, if_true, if_false, Bool.false_eq_true]

theorem decodeFrom_four (ha : 0xF0 ≤ a.toNat ∧ a.toNat ≤ 0xF4) (hb : secondFits a b = true)
    (hc : isContinuation c = true) (hd : isContinuation d = true) :
    decodeFrom index (a :: b :: c :: d :: rest) =
      (decodeFrom (index + 4) rest).map (scalar (a.toNat - 0xF0) [b, c, d] :: ·) := by
  have hone : ¬ a < 0x80 := lead_not_lt (by omega)
  have htwo : ¬ (0xC2 ≤ a && a ≤ 0xDF) = true :=
    fun h => absurd (between_iff.mp h).2 (Nat.not_le.mpr (Nat.lt_of_lt_of_le (by decide) ha.1))
  have hthree : ¬ (0xE0 ≤ a && a ≤ 0xEF) = true :=
    fun h => absurd (between_iff.mp h).2 (Nat.not_le.mpr (Nat.lt_of_lt_of_le (by decide) ha.1))
  have hfour : (0xF0 ≤ a && a ≤ 0xF4) = true := between_iff.mpr ha
  rw [decodeFrom.eq_def]
  simp only [hone, htwo, hthree, hfour, hb, hc, hd, if_true, if_false, Bool.false_eq_true]

end

/-- The number of a character is put together from six bits of each byte behind the lead. -/
theorem scalar_eq {payload n : Nat} {bytes : List UInt8}
    (h : bytes.foldl (fun n b => n * 64 + (b.toNat - 0x80)) payload = n) :
    scalar payload bytes = Char.ofNat n := by
  rw [scalar, h]

/-- The bytes of a character are read as it. -/
theorem decodeFrom_utf8EncodeChar (c : Char) (index : Nat) (rest : List UInt8) :
    ∃ next, decodeFrom index (String.utf8EncodeChar c ++ rest) =
      (decodeFrom next rest).map (c :: ·) := by
  obtain ⟨n, hn, rfl⟩ : ∃ n, n.isValidChar ∧ c = Char.ofNat n :=
    ⟨c.toNat, c.valid, (Char.ofNat_toNat c).symm⟩
  rw [utf8EncodeChar_ofNat hn]
  unfold Nat.isValidChar at hn
  have htail : ∀ m, (UInt8.ofNat (m % 64 + 128)).toNat = m % 64 + 128 :=
    fun m => toNat_ofNat (by omega)
  have hcontinues : ∀ m, isContinuation (UInt8.ofNat (m % 64 + 128)) = true :=
    fun m => isContinuation_ofNat (by omega)
  -- the encoder and the decoder agree on the lead by the size of the number
  repeat' split
  case isTrue h =>
    have ha : (UInt8.ofNat n).toNat = n := toNat_ofNat (by omega)
    exact ⟨index + 1, (decodeFrom_one index rest (by omega)).trans (by rw [ha])⟩
  case isFalse.isTrue h₁ h =>
    have ha : (UInt8.ofNat (n / 64 % 32 + 192)).toNat = n / 64 % 32 + 192 := toNat_ofNat (by omega)
    refine ⟨index + 2, (decodeFrom_two index rest (by omega) (hcontinues n)).trans ?_⟩
    rw [scalar_eq (n := n) (by simp only [List.foldl_cons, List.foldl_nil, ha, htail]; omega)]
  case isFalse.isFalse.isTrue h₁ h₂ h =>
    have ha : (UInt8.ofNat (n / 4096 % 16 + 224)).toNat = n / 4096 % 16 + 224 :=
      toNat_ofNat (by omega)
    have hsecond : secondFits (UInt8.ofNat (n / 4096 % 16 + 224))
        (UInt8.ofNat (n / 64 % 64 + 128)) = true := by
      apply secondFits_of_bounds <;> rw [htail] <;> try rw [ha]
      all_goals omega
    refine ⟨index + 3, (decodeFrom_three index rest (by omega) hsecond (hcontinues n)).trans ?_⟩
    rw [scalar_eq (n := n) (by simp only [List.foldl_cons, List.foldl_nil, ha, htail]; omega)]
  case isFalse.isFalse.isFalse h₁ h₂ h₃ =>
    have ha : (UInt8.ofNat (n / 262144 % 8 + 240)).toNat = n / 262144 % 8 + 240 :=
      toNat_ofNat (by omega)
    have hsecond : secondFits (UInt8.ofNat (n / 262144 % 8 + 240))
        (UInt8.ofNat (n / 4096 % 64 + 128)) = true := by
      apply secondFits_of_bounds <;> rw [htail] <;> try rw [ha]
      all_goals omega
    refine ⟨index + 4, (decodeFrom_four index rest (by omega) hsecond (hcontinues _)
      (hcontinues n)).trans ?_⟩
    rw [scalar_eq (n := n) (by simp only [List.foldl_cons, List.foldl_nil, ha, htail]; omega)]

/-- **Every text is decoded from its own bytes**, wherever in a file they begin. -/
theorem decodeFrom_encode (cs : List Char) (index : Nat) :
    decodeFrom index (encode cs) = .ok cs := by
  induction cs generalizing index with
  | nil => rw [encode_nil, decodeFrom.eq_def]
  | cons c cs ih =>
      obtain ⟨next, hnext⟩ := decodeFrom_utf8EncodeChar c index (encode cs)
      rw [encode_cons, hnext, ih]
      rfl

/-- **The bytes of a text spell it.** -/
theorem decode_encode (cs : List Char) : decode (encode cs) = .ok cs := decodeFrom_encode cs 0

end SqlCaret.Utf8
