import SqlCaret.LineIndex
import SqlCaret.Text.Letters

/-!
# Text — letter case

What folding a text leaves as it is.  Only the letters `a` to `z` are changed, so what is the same
of each of them and its capital is the same of all characters (`Letters.apply_toUpper`).  No byte
comes or goes: a folded text has the lines and the points of the text (`LineIndex.point_fold`).
-/

namespace SqlCaret

namespace Letters

/-- The letter that folding changes and that has `n` others before it. -/
def letter (n : Nat) : Char := Char.ofNat (97 + n)

/-- A character is a small letter, or it is its own capital. -/
theorem exists_letter_or_toUpper_eq (c : Char) : (∃ n < 26, c = letter n) ∨ c.toUpper = c := by
  unfold Char.toUpper
  split
  · rename_i hrange
    have hbounds : 97 ≤ c.toNat ∧ c.toNat ≤ 122 := hrange
    refine .inl ⟨c.toNat - 97, by omega, ?_⟩
    rw [letter, show 97 + (c.toNat - 97) = c.toNat by omega, Char.ofNat_toNat]
  · exact .inr rfl

/-- **What is the same of each letter and its capital** is the same of every character. -/
theorem apply_toUpper {β : Type} {f : Char → β}
    (h : ∀ n < 26, f (letter n).toUpper = f (letter n)) (c : Char) : f c.toUpper = f c := by
  rcases exists_letter_or_toUpper_eq c with ⟨n, hn, rfl⟩ | hc
  · exact h n hn
  · rw [hc]

/-- A property that tells no small letter from its capital tells no character from its capital. -/
theorem iff_toUpper {p : Char → Prop} (h : ∀ n < 26, (p (letter n).toUpper ↔ p (letter n)))
    (c : Char) : p c.toUpper ↔ p c := by
  rcases exists_letter_or_toUpper_eq c with ⟨n, hn, rfl⟩ | hc
  · exact h n hn
  · rw [hc]

/-- A character that is no letter is found just where it was. -/
theorem toUpper_eq_iff {d : Char} (h : d.isAlpha = false) (c : Char) : c.toUpper = d ↔ c = d := by
  have halpha : ∀ n < 26, (letter n).toUpper.isAlpha = true ∧ (letter n).isAlpha = true := by decide
  refine iff_toUpper (p := (· = d)) (fun n hn => ?_) c
  obtain ⟨hupper, hlower⟩ := halpha n hn
  constructor
  · rintro rfl
    rw [hupper] at h
    cases h
  · rintro rfl
    rw [hlower] at h
    cases h

/-- A letter takes one byte in both cases, so offsets stay. -/
theorem utf8Size_toUpper (c : Char) : c.toUpper.utf8Size = c.utf8Size :=
  apply_toUpper (by decide) c

@[simp] theorem fold_nil : fold [] = [] := rfl

@[simp] theorem fold_cons (c : Char) (cs : List Char) : fold (c :: cs) = c.toUpper :: fold cs := rfl

/-- A text has as many bytes in one letter case. -/
theorem size_fold (cs : List Char) : Utf8.size (fold cs) = Utf8.size cs := by
  induction cs with
  | nil => rfl
  | cons c cs ih => rw [fold_cons, Utf8.size_cons, Utf8.size_cons, utf8Size_toUpper, ih]

theorem takeBytes_fold (n : Nat) (cs : List Char) :
    Utf8.takeBytes n (fold cs) = fold (Utf8.takeBytes n cs) := by
  induction cs generalizing n with
  | nil => cases n <;> rfl
  | cons c cs ih =>
      rw [fold_cons, Utf8.takeBytes, Utf8.takeBytes, utf8Size_toUpper]
      split
      · rw [fold_cons, ih]
      · rfl

end Letters

/-! ### Points -/

namespace Line

/-- The line in one letter case. -/
def fold (l : Line) : Line := { l with chars := Letters.fold l.chars }

/-- Folding keeps the lines of a text. -/
theorem split_fold (start : Nat) (cs : List Char) :
    split start (Letters.fold cs) = (split start cs).map fold := by
  induction cs generalizing start with
  | nil => rfl
  | cons c cs ih =>
      have hnewline : c.toUpper = '\n' ↔ c = '\n' := Letters.toUpper_eq_iff (by decide) c
      simp only [Letters.fold_cons, split, hnewline, Letters.utf8Size_toUpper, ih]
      split
      · rfl
      · cases split (start + c.utf8Size) cs <;> rfl

theorem locate_fold (offset : Nat) : ∀ ls : List Line,
    locate offset (ls.map fold) = ((locate offset ls).1, (locate offset ls).2.fold)
  | [] => rfl
  | [_] => rfl
  | l :: m :: ls => by
      have ih := locate_fold offset (m :: ls)
      simp only [List.map_cons] at ih
      simp only [List.map_cons, locate, ih]
      by_cases h : m.start ≤ offset
      · rw [if_pos h, if_pos (show m.fold.start ≤ offset from h)]
      · rw [if_neg h, if_neg (show ¬ m.fold.start ≤ offset from h)]

/-- A column is the same in both cases. -/
theorem column_fold (bytes : Nat) (cs : List Char) :
    column bytes (Letters.fold cs) = column bytes cs := by
  rw [column, column, Letters.takeBytes_fold, Letters.length_fold]

end Line

/-- **Folding moves no point.** -/
theorem LineIndex.point_fold (text : List Char) (offset : Nat) :
    (ofText (Letters.fold text)).point offset = (ofText text).point offset := by
  simp only [point, ofText, SqlCaret.lines, Line.split_fold, Line.locate_fold]
  simp only [Line.fold, Line.column_fold]

end SqlCaret
