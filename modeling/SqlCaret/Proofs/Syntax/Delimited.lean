import SqlCaret.Proofs.Text.Cut
import SqlCaret.Proofs.Text.Decoded
import SqlCaret.Syntax.Token.Delimited

/-!
# Syntax — delimited text, byte by byte

Where delimited text ends, told of its bytes.  `quotedBytes` and `commentBytes?` go over the bytes
of a text as `quoted` and `comment` go over its characters, and take the same part of it
(`quotedBytes_encode`, `commentBytes?_encode`): every delimiter is a character of one byte, and no
other character has that byte in it.

A quoted text ends with the first run of delimiters that has odd length (`QuotedEnd`), for two in
a row stand for one character.  A comment ends where the openings and closings that are read from
the left, no two of them sharing a byte, first bring the depth down to zero (`CommentEnd`); so the
depth is never lowered from zero, where `commentBytes?` has no value.
-/

namespace SqlCaret.Delimited

/-- The bytes that `quoted` takes. -/
def quotedBytes (close : UInt8) : List UInt8 → Extent
  | [] => ⟨0, false⟩
  | [b] => ⟨1, b == close⟩
  | b :: d :: bs =>
    if b = close then
      if d = close then (quotedBytes close bs).after 2 else ⟨1, true⟩
    else (quotedBytes close (d :: bs)).after 1

/-- The first byte of what opens a comment. -/
def slash : UInt8 := '/'.toUInt8

/-- The first byte of what closes a comment. -/
def star : UInt8 := '*'.toUInt8

/-- The bytes that `comment` takes; none if the depth would be lowered from zero. -/
def commentBytes? : (depth : Nat) → List UInt8 → Option Extent
  | _, [] => some ⟨0, false⟩
  | _, [_] => some ⟨1, false⟩
  | depth, a :: b :: bs =>
    if a = slash ∧ b = star then (commentBytes? (depth + 1) bs).map (·.after 2)
    else if a = star ∧ b = slash then
      match depth with
      | 0 => none
      | 1 => some ⟨2, true⟩
      | d + 2 => (commentBytes? (d + 1) bs).map (·.after 2)
    else (commentBytes? depth (b :: bs)).map (·.after 1)

@[simp] theorem length_after (e : Extent) (n : Nat) : (e.after n).length = e.length + n := rfl

@[simp] theorem closed_after (e : Extent) (n : Nat) : (e.after n).closed = e.closed := rfl

/-! ### Runs of a delimiter -/

section
variable {α : Type} {x y : α} {xs : List α} {i n : Nat}

/-- From index `i` on there are `n` of `x` in a row, and no more on either side. -/
structure IsRun (x : α) (xs : List α) (i n : Nat) : Prop where
  pos : 0 < n
  all : ∀ k < n, xs[i + k]? = some x
  left : ∀ j, i = j + 1 → xs[j]? ≠ some x
  right : xs[i + n]? ≠ some x

/-- The first run of odd length ends where `e` does; without one, `e` is all there is. -/
structure QuotedEnd (x : α) (xs : List α) (e : Extent) : Prop where
  closed : e.closed = true → ∃ i n, IsRun x xs i n ∧ n % 2 = 1 ∧ e.length = i + n ∧
    ∀ j m, IsRun x xs j m → m % 2 = 1 → i ≤ j
  unclosed : e.closed = false → e.length = xs.length ∧ ∀ i n, IsRun x xs i n → n % 2 = 0

theorem not_isRun_nil : ¬ IsRun x [] i n := by
  intro h
  have h₀ := h.all 0 h.pos
  simp at h₀

/-- A run lies behind anything that is not `x`. -/
theorem isRun_cons_of_ne (hy : y ≠ x) :
    IsRun x (y :: xs) i n ↔ ∃ j, i = j + 1 ∧ IsRun x xs j n := by
  constructor
  · intro h
    cases i with
    | zero =>
        have h₀ := h.all 0 h.pos
        simp [hy] at h₀
    | succ j =>
        refine ⟨j, rfl, h.pos, fun k hk => ?_, ?_, ?_⟩
        · have hk' := h.all k hk
          rwa [Nat.add_right_comm, List.getElem?_cons_succ] at hk'
        · rintro l rfl
          simpa using h.left (l + 1) rfl
        · have hr := h.right
          rwa [Nat.add_right_comm, List.getElem?_cons_succ] at hr
  · rintro ⟨j, rfl, h⟩
    refine ⟨h.pos, fun k hk => ?_, ?_, ?_⟩
    · rw [Nat.add_right_comm, List.getElem?_cons_succ]
      exact h.all k hk
    · intro l hl
      obtain rfl : j = l := Nat.succ.inj hl
      cases j with
      | zero => simpa using hy
      | succ j => simpa using h.left j rfl
    · rw [Nat.add_right_comm, List.getElem?_cons_succ]
      exact h.right

/-- A run that two more of `x` make longer, from its beginning on. -/
theorem isRun_two_zero : IsRun x (x :: x :: xs) 0 n ↔
    n = 2 ∧ xs.head? ≠ some x ∨ ∃ m, n = m + 2 ∧ IsRun x xs 0 m := by
  constructor
  · intro h
    have hpos := h.pos
    have hright := h.right
    rw [Nat.zero_add] at hright
    match n with
    | 1 => simp at hright
    | 2 => exact .inl ⟨rfl, by simpa [← List.head?_eq_getElem?] using hright⟩
    | m + 3 =>
        refine .inr ⟨m + 1, rfl, by omega, fun k hk => ?_, by simp, ?_⟩
        · simpa using h.all (k + 2) (by omega)
        · simpa using hright
  · rintro (⟨rfl, hhead⟩ | ⟨m, rfl, h⟩)
    · refine ⟨by omega, fun k hk => ?_, by simp, ?_⟩
      · match k with
        | 0 => rfl
        | 1 => rfl
      · simpa [← List.head?_eq_getElem?] using hhead
    · refine ⟨by omega, fun k hk => ?_, by simp, ?_⟩
      · match k with
        | 0 => rfl
        | 1 => rfl
        | k + 2 => simpa using h.all k (by omega)
      · simpa using h.right

/-- A run that begins further on. -/
theorem isRun_two_succ : IsRun x (x :: x :: xs) (i + 1) n ↔
    ∃ j, i = j + 2 ∧ IsRun x xs (j + 1) n := by
  constructor
  · intro h
    match i with
    | 0 => exact absurd rfl (h.left 0 rfl)
    | 1 => exact absurd rfl (h.left 1 rfl)
    | j + 2 =>
        refine ⟨j, rfl, h.pos, fun k hk => ?_, ?_, ?_⟩
        · have hk' := h.all k hk
          rwa [show j + 2 + 1 + k = j + 1 + k + 2 by omega] at hk'
        · rintro l hl
          exact h.left (l + 2) (by omega)
        · have hr := h.right
          rwa [show j + 2 + 1 + n = j + 1 + n + 2 by omega] at hr
  · rintro ⟨j, rfl, h⟩
    refine ⟨h.pos, fun k hk => ?_, ?_, ?_⟩
    · rw [show j + 2 + 1 + k = j + 1 + k + 2 by omega]
      exact h.all k hk
    · intro l hl
      obtain rfl : l = j + 2 := by omega
      exact h.left j rfl
    · rw [show j + 2 + 1 + n = j + 1 + n + 2 by omega]
      exact h.right

namespace QuotedEnd

variable {e : Extent}

/-- Without a delimiter the text does not end. -/
theorem nil : QuotedEnd x [] ⟨0, false⟩ :=
  ⟨nofun, fun _ => ⟨rfl, fun _ _ h => absurd h not_isRun_nil⟩⟩

/-- A delimiter alone is a run of odd length. -/
theorem one (hx : xs.head? ≠ some x) : QuotedEnd x (x :: xs) ⟨1, true⟩ := by
  refine ⟨fun _ => ⟨0, 1, ⟨by omega, fun k hk => ?_, by simp, ?_⟩, rfl, rfl, by simp⟩,
    nofun⟩
  · obtain rfl : k = 0 := by omega
    rfl
  · simpa [← List.head?_eq_getElem?] using hx

/-- Another byte in front puts the end off by one. -/
theorem cons_of_ne (hy : y ≠ x) (h : QuotedEnd x xs e) : QuotedEnd x (y :: xs) (e.after 1) where
  closed hclosed := by
    obtain ⟨i, n, hrun, hodd, hlength, hfirst⟩ := h.closed hclosed
    refine ⟨i + 1, n, (isRun_cons_of_ne hy).mpr ⟨i, rfl, hrun⟩, hodd, ?_, ?_⟩
    · rw [length_after, hlength]
      omega
    · intro j m hj hm
      obtain ⟨j, rfl, hj'⟩ := (isRun_cons_of_ne hy).mp hj
      exact Nat.succ_le_succ (hfirst j m hj' hm)
  unclosed hclosed := by
    obtain ⟨hlength, heven⟩ := h.unclosed hclosed
    refine ⟨by simp [hlength], fun i n hrun => ?_⟩
    obtain ⟨j, rfl, hrun'⟩ := (isRun_cons_of_ne hy).mp hrun
    exact heven j n hrun'

/-- Two delimiters in front make no run odd that was even. -/
theorem two (h : QuotedEnd x xs e) : QuotedEnd x (x :: x :: xs) (e.after 2) where
  closed hclosed := by
    obtain ⟨i, n, hrun, hodd, hlength, hfirst⟩ := h.closed hclosed
    cases i with
    | zero =>
        exact ⟨0, n + 2, isRun_two_zero.mpr (.inr ⟨n, rfl, hrun⟩), by omega,
          by rw [length_after, hlength]; omega, fun _ _ _ _ => Nat.zero_le _⟩
    | succ i =>
        refine ⟨i + 2 + 1, n, isRun_two_succ.mpr ⟨i, rfl, hrun⟩, hodd,
          by rw [length_after, hlength]; omega, fun j m hj hm => ?_⟩
        cases j with
        | zero =>
            -- the run at the beginning is odd only if what it adds two to is
            rcases isRun_two_zero.mp hj with ⟨rfl, -⟩ | ⟨m, rfl, hj'⟩
            · omega
            · have := hfirst 0 m hj' (by omega)
              omega
        | succ j =>
            obtain ⟨j, rfl, hj'⟩ := isRun_two_succ.mp hj
            have := hfirst (j + 1) m hj' hm
            omega
  unclosed hclosed := by
    obtain ⟨hlength, heven⟩ := h.unclosed hclosed
    refine ⟨by simp [hlength], fun i n hrun => ?_⟩
    cases i with
    | zero =>
        rcases isRun_two_zero.mp hrun with ⟨rfl, -⟩ | ⟨m, rfl, hrun'⟩
        · rfl
        · have := heven 0 m hrun'
          omega
    | succ i =>
        obtain ⟨j, rfl, hrun'⟩ := isRun_two_succ.mp hrun
        exact heven (j + 1) n hrun'

end QuotedEnd

end

/-- **A quoted text ends with the first run of delimiters of odd length.** -/
theorem quotedEnd_quotedBytes (close : UInt8) (bs : List UInt8) :
    QuotedEnd close bs (quotedBytes close bs) := by
  fun_induction quotedBytes close bs with
  | case1 => exact .nil
  | case2 b =>
      by_cases hb : b = close
      · subst hb
        rw [beq_self_eq_true]
        exact .one (by simp)
      · rw [beq_false_of_ne hb]
        exact QuotedEnd.nil.cons_of_ne hb
  | case3 b ih => exact ih.two
  | case4 d bs hd => exact .one (by simpa using hd)
  | case5 b d bs hb ih => exact ih.cons_of_ne hb

/-! ### The depth of comments -/

/-- How many more comments open than close in bytes that are read from the left, a delimiter
taking both of its bytes. -/
def net : List UInt8 → Int
  | a :: b :: bs =>
    if a = slash ∧ b = star then net bs + 1
    else if a = star ∧ b = slash then net bs - 1
    else net (b :: bs)
  | _ => 0

/-- `e` is the shortest beginning that takes the depth from `depth` to zero; without one, it is
all there is. -/
structure CommentEnd (depth : Nat) (bs : List UInt8) (e : Extent) : Prop where
  closed : e.closed = true → e.length ≤ bs.length ∧ depth + net (bs.take e.length) = 0
  unclosed : e.closed = false → e.length = bs.length
  inside : ∀ n, n < e.length ∨ e.closed = false → 0 < depth + net (bs.take n)

@[simp] theorem net_nil : net [] = 0 := by simp [net]

@[simp] theorem net_singleton (a : UInt8) : net [a] = 0 := by simp [net]

/-- An opening takes both of its bytes, and so `/*/` does not close what it opens. -/
theorem net_open (bs : List UInt8) : net (slash :: star :: bs) = net bs + 1 := by
  rw [net, if_pos ⟨rfl, rfl⟩]

/-- A closing takes both of its bytes. -/
theorem net_close (bs : List UInt8) : net (star :: slash :: bs) = net bs - 1 := by
  rw [net, if_neg (by decide), if_pos ⟨rfl, rfl⟩]

section
variable {a b : UInt8} {bs : List UInt8}

/-- A byte that begins no delimiter does not count, wherever what follows it is cut off. -/
theorem net_cons_take (hopen : ¬ (a = slash ∧ b = star)) (hclose : ¬ (a = star ∧ b = slash))
    (n : Nat) : net (a :: (b :: bs).take n) = net ((b :: bs).take n) := by
  cases n with
  | zero => simp
  | succ n => rw [List.take_succ_cons, net, if_neg hopen, if_neg hclose]

/-- Less than two bytes open and close nothing. -/
theorem net_take_of_lt_two : ∀ n < 2, net ((a :: b :: bs).take n) = 0
  | 0, _ => by simp
  | 1, _ => by simp

namespace CommentEnd

variable {depth : Nat} {e : Extent}

/-- In one byte no comment ends. -/
theorem short (hdepth : 0 < depth) (hbs : bs.length ≤ 1) :
    CommentEnd depth bs ⟨bs.length, false⟩ := by
  refine ⟨nofun, fun _ => rfl, fun n _ => ?_⟩
  have hnet : net (bs.take n) = 0 := by
    match bs, hbs with
    | [], _ => simp
    | [a], _ => cases n <;> simp
  omega

/-- One step of reading: `front` goes to the comment and changes the depth at its end only. -/
theorem step {depth' : Nat} (front : List UInt8) {rest : List UInt8} (hdepth : 0 < depth)
    (hnet : ∀ n, depth + net (front ++ rest.take n) = depth' + net (rest.take n))
    (hfront : ∀ n < front.length, net (front.take n) = 0) (h : CommentEnd depth' rest e) :
    CommentEnd depth (front ++ rest) (e.after front.length) where
  closed hclosed := by
    obtain ⟨hlength, hzero⟩ := h.closed hclosed
    refine ⟨?_, ?_⟩
    · rw [length_after, List.length_append]
      omega
    · rw [length_after, Nat.add_comm, List.take_length_add_append, hnet, hzero]
  unclosed hclosed := by
    rw [length_after, h.unclosed hclosed, List.length_append, Nat.add_comm]
  inside n hn := by
    by_cases hshort : n < front.length
    · rw [List.take_append_of_le_length (by omega), hfront n hshort]
      omega
    · obtain ⟨m, rfl⟩ := Nat.exists_eq_add_of_le (Nat.le_of_not_lt hshort)
      rw [List.take_length_add_append, hnet]
      refine h.inside m (hn.imp_left fun hn => ?_)
      rw [length_after] at hn
      omega

end CommentEnd

end

/-- **A comment ends where its depth first comes down to zero**, and is never lowered from
there. -/
theorem exists_commentBytes? {depth : Nat} (hdepth : 0 < depth) (bs : List UInt8) :
    ∃ e, commentBytes? depth bs = some e ∧ CommentEnd depth bs e := by
  -- the cases are those of the scanner: an opening, three of a closing, and any other byte
  fun_induction commentBytes? depth bs with
  | case1 => exact ⟨_, rfl, .short hdepth (by simp)⟩
  | case2 => exact ⟨_, rfl, .short hdepth (by simp)⟩
  | case3 depth a b bs h ih =>
      obtain ⟨rfl, rfl⟩ := h
      obtain ⟨e, he, hend⟩ := ih (Nat.succ_pos depth)
      refine ⟨e.after 2, by rw [he]; rfl, hend.step [slash, star] hdepth ?_ ?_⟩
      · intro n
        rw [List.cons_append, List.cons_append, List.nil_append, net_open]
        omega
      · exact net_take_of_lt_two
  | case4 a b bs h₁ h₂ => exact absurd hdepth (Nat.lt_irrefl 0)
  -- the last comment that is open is closed here
  | case5 a b bs h₁ h₂ =>
      obtain ⟨rfl, rfl⟩ := h₂
      refine ⟨_, rfl, fun _ => ⟨by simp, ?_⟩, nofun, ?_⟩
      · simp [net_close]
      · intro n hn
        have hn : n < 2 := hn.resolve_right (by simp)
        rw [net_take_of_lt_two n hn]
        decide
  | case6 a b bs h₁ h₂ d ih =>
      obtain ⟨rfl, rfl⟩ := h₂
      obtain ⟨e, he, hend⟩ := ih (Nat.succ_pos d)
      refine ⟨e.after 2, by rw [he]; rfl, hend.step [star, slash] hdepth ?_ ?_⟩
      · intro n
        rw [List.cons_append, List.cons_append, List.nil_append, net_close]
        omega
      · exact net_take_of_lt_two
  | case7 depth a b bs h₁ h₂ ih =>
      obtain ⟨e, he, hend⟩ := ih hdepth
      refine ⟨e.after 1, by rw [he]; rfl, hend.step [a] hdepth ?_ ?_⟩
      · intro n
        rw [List.singleton_append, net_cons_take h₁ h₂]
      · intro n hn
        obtain rfl : n = 0 := by simpa using hn
        simp

/-! ### Bytes of characters -/

/-- The same end of a text, counted in bytes. -/
def Extent.inBytes (cs : List Char) (e : Extent) : Extent :=
  ⟨Utf8.size (cs.take e.length), e.closed⟩

theorem after_after (e : Extent) (m n : Nat) : (e.after m).after n = e.after (m + n) := by
  simp [Extent.after, Nat.add_assoc]

/-- A character in front puts the end off by its bytes. -/
theorem inBytes_after_one (c : Char) (cs : List Char) (e : Extent) :
    (e.after 1).inBytes (c :: cs) = (e.inBytes cs).after c.utf8Size := by
  simp [Extent.inBytes, Extent.after, Nat.add_comm]

/-! ### Steps over bytes -/

section
variable {close a : UInt8} {bs front : List UInt8}

/-- A delimiter with no other behind it closes the text. -/
theorem quotedBytes_one (h : bs.head? ≠ some close) :
    quotedBytes close (close :: bs) = ⟨1, true⟩ := by
  cases bs with
  | nil => simp [quotedBytes]
  | cons d bs => rw [quotedBytes, if_pos rfl, if_neg (by simpa using h)]

/-- Two delimiters in a row stand for one character. -/
theorem quotedBytes_two :
    quotedBytes close (close :: close :: bs) = (quotedBytes close bs).after 2 := by
  rw [quotedBytes, if_pos rfl, if_pos rfl]

/-- Other bytes are passed over. -/
theorem quotedBytes_skip (h : ∀ b ∈ front, b ≠ close) (rest : List UInt8) :
    quotedBytes close (front ++ rest) = (quotedBytes close rest).after front.length := by
  induction front with
  | nil => rfl
  | cons b front ih =>
      have hb : b ≠ close := h b List.mem_cons_self
      have hone : ∀ bs, quotedBytes close (b :: bs) = (quotedBytes close bs).after 1
        | [] => by simp [quotedBytes, Extent.after, hb]
        | d :: bs => by rw [quotedBytes, if_neg hb]
      rw [List.cons_append, hone, ih fun b' hb' => h b' (List.mem_cons_of_mem _ hb'), after_after,
        List.length_cons]

/-- A byte that begins no delimiter. -/
theorem commentBytes?_one (hopen : ¬ (a = slash ∧ bs.head? = some star))
    (hclose : ¬ (a = star ∧ bs.head? = some slash)) (depth : Nat) :
    commentBytes? depth (a :: bs) = (commentBytes? depth bs).map (·.after 1) := by
  cases bs with
  | nil => simp [commentBytes?, Extent.after]
  | cons b bs =>
      rw [List.head?_cons, Option.some.injEq] at hopen hclose
      rw [commentBytes?.eq_def]
      simp only [hopen, hclose, if_false]

/-- A comment inside a comment has to be closed too. -/
theorem commentBytes?_open (depth : Nat) :
    commentBytes? depth (slash :: star :: bs) =
      (commentBytes? (depth + 1) bs).map (·.after 2) := by
  rw [commentBytes?.eq_def]
  simp

/-- With more than one comment open, a closing does not end the text. -/
theorem commentBytes?_close (depth : Nat) :
    commentBytes? (depth + 2) (star :: slash :: bs) =
      (commentBytes? (depth + 1) bs).map (·.after 2) := by
  have hopen : ¬ (star = slash ∧ slash = star) := by decide
  rw [commentBytes?.eq_def]
  simp only [hopen, and_self, if_true, if_false]

theorem commentBytes?_skip (h : ∀ b ∈ front, b ≠ slash ∧ b ≠ star) (depth : Nat)
    (rest : List UInt8) :
    commentBytes? depth (front ++ rest) =
      (commentBytes? depth rest).map (·.after front.length) := by
  induction front with
  | nil => simp [Extent.after]
  | cons b front ih =>
      obtain ⟨hslash, hstar⟩ := h b List.mem_cons_self
      rw [List.cons_append, commentBytes?_one (fun hb => hslash hb.1) (fun hb => hstar hb.1),
        ih fun b' hb' => h b' (List.mem_cons_of_mem _ hb'), Option.map_map]
      simp [Function.comp_def, after_after]

end

/-! ### Over bytes and over characters -/

/-- **A quoted text ends at the same place**, read as bytes or as characters. -/
theorem quotedBytes_encode {close : Char} (hclose : close.toNat < 0x80) (cs : List Char) :
    quotedBytes close.toUInt8 (Utf8.encode cs) = (quoted close cs).inBytes cs := by
  have hskip : ∀ {c : Char}, c ≠ close → ∀ rest,
      quotedBytes close.toUInt8 (Utf8.encode (c :: rest)) =
        (quotedBytes close.toUInt8 (Utf8.encode rest)).after c.utf8Size := by
    intro c hc rest
    rw [Utf8.encode_cons, quotedBytes_skip (Utf8.ne_toUInt8_of_mem hclose hc),
      String.length_utf8EncodeChar]
  fun_induction quoted close cs with
  | case1 => rfl
  | case2 c =>
      by_cases hc : c = close
      · subst hc
        rw [Utf8.encode_cons_of_lt hclose, quotedBytes_one (by simp)]
        simp [Extent.inBytes, Utf8.utf8Size_of_lt hclose]
      · rw [hskip hc]
        simp [Extent.inBytes, Extent.after, quotedBytes, hc]
  | case3 cs ih =>
      rw [Utf8.encode_cons_of_lt hclose, Utf8.encode_cons_of_lt hclose, quotedBytes_two, ih]
      simp [Extent.inBytes, Extent.after, Utf8.utf8Size_of_lt hclose]
      omega
  | case4 d cs hd =>
      have hhead : (Utf8.encode (d :: cs)).head? ≠ some close.toUInt8 :=
        fun h => hd (Option.some.inj ((Utf8.head?_encode_iff hclose).mp h))
      rw [Utf8.encode_cons_of_lt hclose, quotedBytes_one hhead]
      simp [Extent.inBytes, Utf8.utf8Size_of_lt hclose]
  | case5 c d cs hc ih => rw [hskip hc, ih, inBytes_after_one]

theorem slash_lt : ('/' : Char).toNat < 0x80 := by decide

theorem star_lt : ('*' : Char).toNat < 0x80 := by decide

/-- A character that begins no delimiter. -/
theorem commentBytes?_encode_cons {c : Char} {cs : List Char}
    (hopen : ¬ (c = '/' ∧ cs.head? = some '*')) (hclose : ¬ (c = '*' ∧ cs.head? = some '/'))
    (depth : Nat) :
    commentBytes? depth (Utf8.encode (c :: cs)) =
      (commentBytes? depth (Utf8.encode cs)).map (·.after c.utf8Size) := by
  by_cases hslash : c = '/'
  · subst hslash
    rw [Utf8.encode_cons_of_lt slash_lt, commentBytes?_one, Utf8.utf8Size_of_lt slash_lt]
    · exact fun h => hopen ⟨rfl, (Utf8.head?_encode_iff star_lt).mp h.2⟩
    · exact fun h => absurd h.1 (by decide)
  by_cases hstar : c = '*'
  · subst hstar
    rw [Utf8.encode_cons_of_lt star_lt, commentBytes?_one, Utf8.utf8Size_of_lt star_lt]
    · exact fun h => absurd h.1 (by decide)
    · exact fun h => hclose ⟨rfl, (Utf8.head?_encode_iff slash_lt).mp h.2⟩
  rw [Utf8.encode_cons, commentBytes?_skip, String.length_utf8EncodeChar]
  exact fun b hb =>
    ⟨Utf8.ne_toUInt8_of_mem slash_lt hslash b hb, Utf8.ne_toUInt8_of_mem star_lt hstar b hb⟩

theorem inBytes_after_two (c d : Char) (cs : List Char) (e : Extent) (hc : c.utf8Size = 1)
    (hd : d.utf8Size = 1) : (e.after 2).inBytes (c :: d :: cs) = (e.inBytes cs).after 2 := by
  simp [Extent.inBytes, Extent.after, hc, hd]
  omega

/-- **A comment ends at the same place**, read as bytes or as characters. -/
theorem commentBytes?_encode {depth : Nat} (hdepth : 0 < depth) (cs : List Char) :
    commentBytes? depth (Utf8.encode cs) = some ((comment depth cs).inBytes cs) := by
  have hslash := Utf8.utf8Size_of_lt slash_lt
  have hstar := Utf8.utf8Size_of_lt star_lt
  -- each delimiter is two characters of one byte, so both scanners take the same step
  fun_induction comment depth cs with
  | case1 => simp [commentBytes?, Extent.inBytes]
  | case2 depth c =>
      rw [commentBytes?_encode_cons (by simp) (by simp)]
      simp [commentBytes?, Extent.inBytes, Extent.after]
  | case3 depth c d cs h ih =>
      obtain ⟨rfl, rfl⟩ := h
      rw [Utf8.encode_cons_of_lt slash_lt, Utf8.encode_cons_of_lt star_lt,
        inBytes_after_two _ _ _ _ hslash hstar]
      exact (commentBytes?_open depth).trans (by rw [ih (Nat.succ_pos depth)]; rfl)
  | case4 depth c d cs h₁ h₂ hd =>
      obtain ⟨rfl, rfl⟩ := h₂
      obtain rfl : depth = 1 := by omega
      rw [Utf8.encode_cons_of_lt star_lt, Utf8.encode_cons_of_lt slash_lt]
      simp [Extent.inBytes, hslash, hstar]
      rfl
  | case5 depth c d cs h₁ h₂ hd ih =>
      obtain ⟨rfl, rfl⟩ := h₂
      obtain ⟨d, rfl⟩ : ∃ d, depth = d + 2 := ⟨depth - 2, by omega⟩
      have hsub : d + 2 - 1 = d + 1 := rfl
      rw [hsub] at ih ⊢
      rw [Utf8.encode_cons_of_lt star_lt, Utf8.encode_cons_of_lt slash_lt,
        inBytes_after_two _ _ _ _ hstar hslash]
      exact (commentBytes?_close d).trans (by rw [ih (Nat.succ_pos d)]; rfl)
  | case6 depth c d cs h₁ h₂ ih =>
      rw [commentBytes?_encode_cons (by simpa using h₁) (by simpa using h₂), ih hdepth,
        inBytes_after_one]
      rfl

/-- The end of a part of a text is a character boundary. -/
theorem isBoundary_inBytes (cs : List Char) (e : Extent) :
    Utf8.IsBoundary cs (e.inBytes cs).length :=
  ⟨cs.take e.length, cs.drop e.length, (List.take_append_drop _ _).symm, rfl⟩

/-- **The scanners find the right end.**  Over the bytes of a text they take the same part as
over its characters, so they stop between two characters.  A quoted text ends with the first run
of delimiters of odd length, a comment with the shortest beginning that takes the depth from one
to zero; without such an end, either takes the whole text.  The depth of a comment is never
lowered from zero. -/
theorem scanners_find_ends (cs : List Char) {close : Char} (hclose : close.toNat < 0x80) :
    (∃ e, quotedBytes close.toUInt8 (Utf8.encode cs) = e ∧ e = (quoted close cs).inBytes cs ∧
      QuotedEnd close.toUInt8 (Utf8.encode cs) e ∧ Utf8.IsBoundary cs e.length) ∧
    ∃ e, commentBytes? 1 (Utf8.encode cs) = some e ∧ e = (comment 1 cs).inBytes cs ∧
      CommentEnd 1 (Utf8.encode cs) e ∧ Utf8.IsBoundary cs e.length := by
  constructor
  · have hbytes := quotedBytes_encode hclose cs
    have hend := quotedEnd_quotedBytes close.toUInt8 (Utf8.encode cs)
    exact ⟨_, hbytes, rfl, hbytes ▸ hend, isBoundary_inBytes cs _⟩
  · obtain ⟨e, he, hend⟩ := exists_commentBytes? Nat.one_pos (Utf8.encode cs)
    obtain rfl := Option.some.inj ((commentBytes?_encode Nat.one_pos cs).symm.trans he)
    exact ⟨_, he, rfl, hend, isBoundary_inBytes cs _⟩

/-- Three quotes are a doubled one and the end, and a comment ends behind its last slash. -/
theorem scanners_find_ends_tripled :
    let bytes := Utf8.encode "é'''*/".toList
    ('\'' : Char).toNat < 0x80 ∧ quotedBytes ('\'' : Char).toUInt8 bytes = ⟨5, true⟩ ∧
      QuotedEnd ('\'' : Char).toUInt8 bytes ⟨5, true⟩ ∧
      commentBytes? 1 bytes = some ⟨7, true⟩ ∧ CommentEnd 1 bytes ⟨7, true⟩ := by
  intro bytes
  have hclose : ('\'' : Char).toNat < 0x80 := by decide
  obtain ⟨⟨e, he, -, hquoted, -⟩, e', he', -, hcomment, -⟩ :=
    scanners_find_ends "é'''*/".toList hclose
  have hq : quotedBytes ('\'' : Char).toUInt8 bytes = ⟨5, true⟩ := by decide
  have hc : commentBytes? 1 bytes = some ⟨7, true⟩ := by decide
  obtain rfl := he.symm.trans hq
  obtain rfl := Option.some.inj (he'.symm.trans hc)
  exact ⟨hclose, hq, hquoted, hc, hcomment⟩

end SqlCaret.Delimited
