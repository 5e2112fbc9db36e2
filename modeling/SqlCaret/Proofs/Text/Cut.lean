import SqlCaret.Text.Utf8

/-!
# Text — cuts

Where `takeBytes`, `dropBytes` and `slice` cut.  At the size of a beginning of the text they cut
right behind that beginning (`takeBytes_size_append`, `slice_size_append`).  Any other offset
acts like the offset of the last character boundary before it, so a longer cut never loses a
character that a shorter one has (`takeBytes_prefix_takeBytes`), and it has every beginning that
is no larger (`prefix_takeBytes`).
-/

namespace SqlCaret.Utf8

/-- Two characters meet at the byte offset, or the text begins or ends there. -/
def IsBoundary (text : List Char) (offset : Nat) : Prop :=
  ∃ a b, text = a ++ b ∧ size a = offset

@[simp] theorem takeBytes_nil (n : Nat) : takeBytes n [] = [] := rfl

@[simp] theorem takeBytes_zero (cs : List Char) : takeBytes 0 cs = [] := by
  cases cs with
  | nil => rfl
  | cons c cs =>
      have hc := c.utf8Size_pos
      simp only [takeBytes]
      rw [if_neg (by omega)]

/-- Only an empty text takes no bytes. -/
theorem size_eq_zero_iff {cs : List Char} : size cs = 0 ↔ cs = [] := by
  cases cs with
  | nil => simp
  | cons c cs =>
      have hc := c.utf8Size_pos
      simp only [size_cons, reduceCtorEq, iff_false]
      omega

/-- A cut behind `a` and `n` bytes further on. -/
theorem takeBytes_append (a b : List Char) (n : Nat) :
    takeBytes (size a + n) (a ++ b) = a ++ takeBytes n b := by
  induction a with
  | nil => simp
  | cons c cs ih =>
      simp only [size_cons, List.cons_append, takeBytes]
      rw [if_pos (by omega), show c.utf8Size + size cs + n - c.utf8Size = size cs + n by omega, ih]

@[simp] theorem takeBytes_size_append (a b : List Char) : takeBytes (size a) (a ++ b) = a := by
  have h := takeBytes_append a b 0
  simpa using h

@[simp] theorem dropBytes_size_append (a b : List Char) : dropBytes (size a) (a ++ b) = b := by
  have h := takeBytes_append_dropBytes (size a) (a ++ b)
  rw [takeBytes_size_append] at h
  exact List.append_cancel_left h

/-- The part between two beginnings of a text. -/
@[simp] theorem slice_size_append (a b c : List Char) :
    slice (size a) (size a + size b) (a ++ (b ++ c)) = b := by
  rw [slice, dropBytes_size_append, Nat.add_sub_cancel_left, takeBytes_size_append]

/-- What is taken has no more bytes than were asked for; a character that is cut is left out. -/
theorem size_takeBytes_le (n : Nat) (cs : List Char) : size (takeBytes n cs) ≤ n := by
  induction cs generalizing n with
  | nil => simp
  | cons c cs ih =>
      simp only [takeBytes]
      split
      · have := ih (n - c.utf8Size)
        simp only [size_cons]
        omega
      · simp

/-- Less than one character fits between the cut and the offset. -/
theorem takeBytes_sub_dropBytes (n : Nat) (cs : List Char) :
    takeBytes (n - size (takeBytes n cs)) (dropBytes n cs) = [] := by
  induction cs generalizing n with
  | nil => simp [dropBytes]
  | cons c cs ih =>
      simp only [takeBytes, dropBytes]
      split
      · rw [size_cons, ← Nat.sub_sub]
        exact ih (n - c.utf8Size)
      · rename_i h
        exact if_neg h

theorem takeBytes_prefix_takeBytes {m n : Nat} (h : m ≤ n) (cs : List Char) :
    takeBytes m cs <+: takeBytes n cs := by
  induction cs generalizing m n with
  | nil => simp
  | cons c cs ih =>
      simp only [takeBytes]
      by_cases hm : c.utf8Size ≤ m
      · rw [if_pos hm, if_pos (Nat.le_trans hm h)]
        exact List.cons_prefix_cons.mpr ⟨rfl, ih (by omega)⟩
      · rw [if_neg hm]
        exact List.nil_prefix

theorem size_le_of_prefix {a b : List Char} (h : a <+: b) : size a ≤ size b := by
  obtain ⟨c, rfl⟩ := h
  rw [size_append]
  exact Nat.le_add_right _ _

/-- What ends at or before a byte is in front of that byte. -/
theorem prefix_takeBytes {a b : List Char} {n : Nat} (h : size a ≤ n) :
    a <+: takeBytes n (a ++ b) := by
  have hcut := takeBytes_prefix_takeBytes h (a ++ b)
  rwa [takeBytes_size_append] at hcut

end SqlCaret.Utf8
