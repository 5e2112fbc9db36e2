import SqlCaret.Proofs.Syntax.Tokens

/-!
# Document — coordinates

A script is read through a line index and edited in a document, and each turns bytes into points in
its own way: the index counts every character of a line, the document does not show the carriage
return that belongs to a line feed.

* They name the same point for a byte where characters meet just if a caret can stand there
  (`Document.pointOf_eq_iff`), that is everywhere but inside a carriage return with its line feed.
* Both count as many lines as there are line feeds, and one more (`Line.length_lines`).

`Document.coordinates_agree` puts this together with what is known of tokens: a significant token
begins and ends where carets can stand, so its points mean the same to both.
-/

namespace SqlCaret

namespace Line

theorem length_split (start : Nat) (cs : List Char) :
    (split start cs).length = cs.count '\n' + 1 := by
  induction cs generalizing start with
  | nil => rfl
  | cons c cs ih =>
      by_cases hc : c = '\n'
      · subst hc
        rw [split_newline, List.length_cons, ih, List.count_cons_self]
      · obtain ⟨ls, hls⟩ := exists_split_eq_cons (start + c.utf8Size) cs
        have ih := ih (start + c.utf8Size)
        rw [hls] at ih
        rw [split_other hc hls, List.count_cons_of_ne hc, ← ih]
        rfl

/-- **Every line but the last has its line feed.** -/
theorem length_lines (text : List Char) : (lines text).length = text.count '\n' + 1 :=
  length_split 0 text

/-- A character that is no line feed and ends a text ends its last line. -/
theorem getLast?_lastLine {a : List Char} {c : Char} (h : a.getLast? = some c) (hc : c ≠ '\n') :
    (lastLine a).getLast? = some c := by
  obtain ⟨a, rfl⟩ := List.getLast?_eq_some_iff.mp h
  rw [lastLine_concat, if_neg hc, List.getLast?_append]
  rfl

end Line

namespace Document

variable {d : Document} {o : Nat}

/-- Inside a carriage return with its line feed the document names a point further left than the
line index. -/
theorem offset_pointOf_lt {a b : List Char} (htext : d.text = a ++ b)
    (ha : a.getLast? = some '\r') (hb : b.head? = some '\n') :
    (d.pointOf (Utf8.size a)).offset < (Point.after a).offset := by
  have hlast := Line.getLast?_lastLine ha (by decide)
  have hfirst : Line.firstLine b = [] := Line.firstLine_eq_nil_iff.mpr (.inr hb)
  have hmem : '\n' ∈ b := List.mem_of_mem_head? hb
  -- what the line shows lacks the carriage return, which the index counts
  have hcontent : ∀ start, Line.content
      ⟨start, Line.lastLine a ++ Line.firstLine b, decide ('\n' ∈ b)⟩ =
        (Line.lastLine a).dropLast := by
    intro start
    simp [Line.content, hfirst, hmem, hlast]
  have hpos : 0 < (Line.lastLine a).length := by
    obtain ⟨x, hx⟩ := List.getLast?_eq_some_iff.mp hlast
    simp [hx]
  simp only [pointOf, htext, Line.locate_lines, Utf8.takeBytes_size_append,
    Utf8.dropBytes_size_append, hcontent, Line.column, Point.after]
  have hle := (Utf8.takeBytes_append_dropBytes
    (Utf8.size a - Utf8.size (Line.fullLines a)) (Line.lastLine a).dropLast)
  have hlen := congrArg List.length hle
  rw [List.length_append, List.length_dropLast] at hlen
  omega

/-- **Where the two ways to count agree.**  Of the bytes where characters meet, the document and the
line index name the same point just for those where a caret can stand. -/
theorem pointOf_eq_iff (h : Utf8.IsBoundary d.text o) :
    d.pointOf o = (LineIndex.ofText d.text).point o ↔ IsCaret d.text o := by
  refine ⟨fun heq => ?_, pointOf_eq⟩
  obtain ⟨a, b, htext, rfl⟩ := h
  refine ⟨a, b, htext, rfl, fun ⟨ha, hb⟩ => ?_⟩
  have hlt := offset_pointOf_lt htext ha hb
  rw [heq, htext, LineIndex.point_size] at hlt
  exact Nat.lt_irrefl _ hlt

/-- **The document and the line index agree.**  Wherever a caret can stand, they name the same point,
and the document finds the byte again at that point; they count the same lines.  Both ends of every
significant token are such places, and where characters meet elsewhere, the two do not agree. -/
theorem coordinates_agree (d : Document) :
    (∀ o, IsCaret d.text o →
      (LineIndex.ofText d.text).point o = d.pointOf o ∧ d.offsetOf (d.pointOf o) = o) ∧
    (∀ o, Utf8.IsBoundary d.text o → (LineIndex.ofText d.text).point o = d.pointOf o →
      IsCaret d.text o) ∧
    (LineIndex.ofText d.text).lineCount = d.text.count '\n' + 1 ∧
    d.lineCount = d.text.count '\n' + 1 ∧
    ∀ t ∈ Token.significant (tokenize d.text), IsCaret d.text t.offset ∧ IsCaret d.text t.stop := by
  refine ⟨fun o ho => ?_, fun o ho heq => (pointOf_eq_iff ho).mp heq.symm,
    Line.length_lines d.text, Line.length_lines d.text, fun t ht => isCaret_of_mem_significant ht⟩
  have heq : d.pointOf o = (LineIndex.ofText d.text).point o := pointOf_eq ho
  rw [heq]
  exact ⟨rfl, offsetOf_point ho⟩

/-- A letter of two bytes and the line ending behind it, and a word on the next line. -/
theorem coordinates_agree_crlf :
    let d := ofText ['ü', '\r', '\n', 'x']
    (LineIndex.ofText d.text).point 2 = d.pointOf 2 ∧ d.offsetOf (d.pointOf 2) = 2 ∧
      (LineIndex.ofText d.text).point 2 = ⟨1, 1⟩ ∧ IsCaret d.text 4 ∧ IsCaret d.text 5 := by
  intro d
  obtain ⟨hagree, honly, -, -, htokens⟩ := coordinates_agree d
  obtain ⟨hpoint, hoffset⟩ := hagree 2 ⟨['ü'], ['\r', '\n', 'x'], rfl, by decide, by decide⟩
  have hfour : IsCaret d.text 4 :=
    honly 4 ⟨['ü', '\r', '\n'], ['x'], rfl, by decide⟩ (by decide)
  obtain ⟨-, hfive⟩ := htokens ⟨⟨.word, ['x']⟩, 4⟩ (by decide)
  exact ⟨hpoint, hoffset, by decide, hfour, hfive⟩

end Document

end SqlCaret
