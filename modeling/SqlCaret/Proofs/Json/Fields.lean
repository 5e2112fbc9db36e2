import Mathlib.Data.List.Basic
import SqlCaret.Json.Fields
import SqlCaret.Proofs.Json.Written
import SqlCaret.Proofs.Text.Points

/-!
# JSON — the fields of spans and selections

Which values are a point, a span or a selection.  `Json.IsPair` says what a record of two fields
is, whatever way it is encoded, and `Json.ArePoints` that its fields are points, encoded in turn in
any way.  What `decode` answers is told by them: a span comes out just if the points are in order,
and if they are not, they are what the fault names.

`Json.decode_keeps_order` puts that together, with the way back from what is written: spans in
order come back, and selections as they are.
-/

namespace SqlCaret

namespace Json

/-- A record of the fields `a` and `b`: an object with just one member of each name, at any place
and among members of other names, or an array of the two. -/
inductive IsPair (first second : String) (a b : Json) : Json → Prop
  | array : IsPair first second a b (.array [a, b])
  | object {ms others : List (Spelled × Json)}
      (hfields : ms.Perm ((some first.toList, a) :: (some second.toList, b) :: others))
      (hothers : ∀ m ∈ others, ∃ name, m.1 = some name ∧ name ≠ first.toList ∧
        name ≠ second.toList) : IsPair first second a b (.object ms)

/-- A field is found just if one member has its name, and only one. -/
theorem field?_eq_some_iff {name : String} {ms : List (Spelled × Json)} {v : Json} :
    field? name ms = some v ↔
      ms.filter (·.1 == some name.toList) = [(some name.toList, v)] := by
  have hname : ∀ m ∈ ms.filter (·.1 == some name.toList), m.1 = some name.toList := by
    simp only [List.mem_filter, beq_iff_eq]
    exact fun m hm => hm.2
  rw [field?]
  split
  case h_1 m hm =>
    rw [hm] at hname ⊢
    have hm₁ := hname m (by simp)
    constructor
    · intro h
      rw [← Option.some.inj h, ← hm₁]
    · intro h
      rw [(List.cons.inj h).1]
  case h_2 hne =>
    exact ⟨nofun, fun h => absurd h (hne _)⟩

/-- The members of one name, then those of another, then the rest. -/
theorem perm_fields {first second : String} (hne : first ≠ second) (ms : List (Spelled × Json)) :
    ms.Perm (ms.filter (·.1 == some first.toList) ++ (ms.filter (·.1 == some second.toList) ++
      (ms.filter (!·.1 == some first.toList)).filter (!·.1 == some second.toList))) := by
  -- those of the second name are none of the first
  have hsecond : (ms.filter (!·.1 == some first.toList)).filter (·.1 == some second.toList) =
      ms.filter (·.1 == some second.toList) := by
    rw [List.filter_filter]
    refine List.filter_congr fun m _ => ?_
    by_cases h : m.1 = some second.toList
    · simp [h, String.toList_inj, hne.symm]
    · simp [h]
  rw [← hsecond]
  exact (List.filter_append_perm _ ms).symm.trans
    ((List.filter_append_perm _ _).symm.append_left _)

/-- Fields that are found are all that there is with their names. -/
theorem isPair_of_pair? {first second : String} (hne : first ≠ second) {j a b : Json}
    (h : pair? first second j = some (a, b)) : IsPair first second a b j := by
  unfold pair? at h
  split at h
  case h_1 ms =>
    split at h
    case isTrue hspelled =>
      simp only [Option.bind_eq_bind, Option.bind_eq_some_iff, field?_eq_some_iff, pure,
        Option.some.injEq, Prod.mk.injEq] at h
      obtain ⟨_, hfirst, _, hsecond, rfl, rfl⟩ := h
      have hperm := perm_fields hne ms
      rw [hfirst, hsecond, List.singleton_append, List.singleton_append] at hperm
      refine .object hperm fun m hm => ?_
      simp only [List.mem_filter, Bool.not_eq_true', beq_eq_false_iff_ne] at hm
      obtain ⟨⟨hmem, hm₁⟩, hm₂⟩ := hm
      obtain ⟨name, hname⟩ := Option.isSome_iff_exists.mp (List.all_eq_true.mp hspelled m hmem)
      rw [hname] at hm₁ hm₂
      exact ⟨name, hname, fun h => hm₁ (congrArg some h), fun h => hm₂ (congrArg some h)⟩
    case isFalse => exact nomatch h
  case h_2 =>
    obtain ⟨rfl, rfl⟩ := Prod.mk.inj (Option.some.inj h)
    exact .array
  case h_3 => exact nomatch h

/-- The fields of an object are found wherever they stand. -/
theorem pair?_object {first second : String} (hne : first ≠ second)
    {ms others : List (Spelled × Json)} {a b : Json}
    (hfields : ms.Perm ((some first.toList, a) :: (some second.toList, b) :: others))
    (hothers : ∀ m ∈ others, ∃ name, m.1 = some name ∧ name ≠ first.toList ∧
      name ≠ second.toList) : pair? first second (.object ms) = some (a, b) := by
  have hspelled : ms.all (·.1.isSome) = true := by
    rw [hfields.all_eq]
    simp only [List.all_cons, Option.isSome_some, Bool.true_and, List.all_eq_true]
    intro m hm
    obtain ⟨name, hname, -⟩ := hothers m hm
    rw [hname, Option.isSome_some]
  have hnone : ∀ name : String, (∀ m ∈ others, m.1 ≠ some name.toList) →
      others.filter (·.1 == some name.toList) = [] := by
    intro name h
    simpa [List.filter_eq_nil_iff] using h
  have hfirst := hnone first fun m hm heq => by
    obtain ⟨name, hname, hne, -⟩ := hothers m hm
    exact hne (Option.some.inj (hname.symm.trans heq))
  have hsecond := hnone second fun m hm heq => by
    obtain ⟨name, hname, -, hne⟩ := hothers m hm
    exact hne (Option.some.inj (hname.symm.trans heq))
  have hfoundFirst := hfields.filter (·.1 == some first.toList)
  have hfoundSecond := hfields.filter (·.1 == some second.toList)
  simp [hfirst, String.toList_inj, hne.symm] at hfoundFirst
  simp [hsecond, String.toList_inj, hne] at hfoundSecond
  simp [pair?, hspelled, field?_eq_some_iff.mpr hfoundFirst, field?_eq_some_iff.mpr hfoundSecond]

/-- **What is read as a record of two fields is one**, in each encoding. -/
theorem pair?_eq_some_iff {first second : String} (hne : first ≠ second) {j a b : Json} :
    pair? first second j = some (a, b) ↔ IsPair first second a b j := by
  refine ⟨isPair_of_pair? hne, fun h => ?_⟩
  cases h with
  | array => rfl
  | object hfields hothers => exact pair?_object hne hfields hothers

end Json

/-- Coordinates of at most 64 bits. -/
def Point.Fits (p : Point) : Prop := p.line < UInt64.size ∧ p.offset < UInt64.size

namespace Json

/-- The value is a point. -/
def IsPoint (p : Point) (j : Json) : Prop :=
  IsPair "line" "offset" (.natural p.line) (.natural p.offset) j ∧ p.Fits

/-- The value is a record of two points. -/
def ArePoints (first second : String) (p q : Point) (j : Json) : Prop :=
  ∃ a b, IsPair first second a b j ∧ IsPoint p a ∧ IsPoint q b

/-- A coordinate is a natural number of at most 64 bits. -/
theorem coordinate?_eq_some_iff {j : Json} {n : Nat} :
    coordinate? j = some n ↔ j = .natural n ∧ n < UInt64.size := by
  unfold coordinate?
  split
  case h_1 m =>
    split
    case isTrue hlt =>
      simp only [Option.some.injEq, Json.natural.injEq]
      exact ⟨fun h => ⟨h, h ▸ hlt⟩, And.left⟩
    case isFalse hge =>
      simp only [Json.natural.injEq]
      exact ⟨nofun, fun ⟨h, hlt⟩ => absurd (h ▸ hlt) hge⟩
  case h_2 hne => exact ⟨nofun, fun h => absurd h.1 (hne n)⟩

/-- What is read as a point is one. -/
theorem ofJson?_eq_some_iff {j : Json} {p : Point} :
    Point.ofJson? j = some p ↔ IsPoint p j := by
  obtain ⟨line, offset⟩ := p
  simp only [Point.ofJson?, IsPoint, Point.Fits, Option.bind_eq_bind, Option.bind_eq_some_iff,
    coordinate?_eq_some_iff, pure, Option.some.injEq, Point.mk.injEq, Prod.exists,
    pair?_eq_some_iff (show "line" ≠ "offset" by decide)]
  constructor
  · rintro ⟨_, _, hpair, _, ⟨rfl, hline⟩, _, ⟨rfl, hoffset⟩, rfl, rfl⟩
    exact ⟨hpair, hline, hoffset⟩
  · rintro ⟨hpair, hline, hoffset⟩
    exact ⟨_, _, hpair, _, ⟨rfl, hline⟩, _, ⟨rfl, hoffset⟩, rfl, rfl⟩

/-- What comes of the two points of a record. -/
theorem points_eq_some_iff {α : Type} {first second : String} (hne : first ≠ second)
    {f : Point → Point → α} {j : Json} {x : α} :
    (do let (a, b) ← pair? first second j
        return f (← Point.ofJson? a) (← Point.ofJson? b)) = some x ↔
      ∃ p q, ArePoints first second p q j ∧ f p q = x := by
  simp only [Option.bind_eq_bind, Option.bind_eq_some_iff, ofJson?_eq_some_iff, pure,
    Option.some.injEq, Prod.exists, pair?_eq_some_iff hne]
  constructor
  · rintro ⟨a, b, hpair, p, hp, q, hq, rfl⟩
    exact ⟨p, q, ⟨a, b, hpair, hp, hq⟩, rfl⟩
  · rintro ⟨p, q, ⟨a, b, hpair, hp, hq⟩, rfl⟩
    exact ⟨a, b, hpair, p, hp, q, hq, rfl⟩

section
variable {α : Type} {f : Json → Except DecodeFault α} {text : List Char}

/-- A text is decoded if nothing but white space stands behind the value. -/
theorem decode_of_ok {j : Json} {rest : List Char} {a : α} (hread : read? text = some (j, rest))
    (hf : f j = .ok a) :
    decode f text = if (skipBlanks rest).isEmpty then .ok a else .error .malformed := by
  rw [decode, hread]
  simp only [hf]
  rfl

/-- A fault in the value is answered whatever stands behind it. -/
theorem decode_of_error {j : Json} {rest : List Char} {e : DecodeFault}
    (hread : read? text = some (j, rest)) (hf : f j = .error e) : decode f text = .error e := by
  rw [decode, hread]
  simp only [hf]
  rfl

/-- What is no JSON is malformed. -/
theorem decode_of_none (hread : read? text = none) : decode f text = .error .malformed := by
  rw [decode, hread]

/-- A value comes out of a text that is it, and no more. -/
theorem decode_eq_ok_iff {a : α} :
    decode f text = .ok a ↔
      ∃ j rest, read? text = some (j, rest) ∧ skipBlanks rest = [] ∧ f j = .ok a := by
  constructor
  · intro h
    cases hread : read? text with
    | none => exact nomatch (decode_of_none hread).symm.trans h
    | some r =>
        obtain ⟨j, rest⟩ := r
        cases hf : f j with
        | error e => exact nomatch (decode_of_error hread hf).symm.trans h
        | ok b =>
            rw [decode_of_ok hread hf] at h
            split at h
            case isTrue hrest =>
              exact ⟨j, rest, rfl, List.isEmpty_iff.mp hrest, hf.trans h⟩
            case isFalse => exact nomatch h
  · rintro ⟨j, rest, hread, hrest, hf⟩
    rw [decode_of_ok hread hf, if_pos (List.isEmpty_iff.mpr hrest)]

/-- What is wrong with the value itself is told whatever stands behind it. -/
theorem decode_eq_inverted_iff {e : Span.Inverted} :
    decode f text = .error (.inverted e) ↔
      ∃ j rest, read? text = some (j, rest) ∧ f j = .error (.inverted e) := by
  constructor
  · intro h
    cases hread : read? text with
    | none => exact nomatch (decode_of_none hread).symm.trans h
    | some r =>
        obtain ⟨j, rest⟩ := r
        cases hf : f j with
        | error e' => exact ⟨j, rest, rfl, hf.trans ((decode_of_error hread hf).symm.trans h)⟩
        | ok b =>
            rw [decode_of_ok hread hf] at h
            split at h <;> exact nomatch h
  · rintro ⟨j, rest, hread, hf⟩
    exact decode_of_error hread hf

/-- Of a text that `compact` writes, all is the value. -/
theorem decode_compact {j : Json} (h : Faithful j) : decode f j.compact = f j := by
  have hread := read?_compact h
  cases hf : f j with
  | error e => exact decode_of_error hread hf
  | ok a => exact decode_of_ok hread hf

end

end Json

namespace Span

/-- A span is made just if its points are in order. -/
theorem ofJson_eq {j : Json} {p q : Point} (h : Json.ArePoints "start" "end" p q j) :
    ofJson j = (between p q).mapError .inverted := by
  have hpoints := (Json.points_eq_some_iff (f := Prod.mk) (by decide)).mpr ⟨p, q, h, rfl⟩
  rw [ofJson, hpoints]

/-- Anything but a record of two points is malformed. -/
theorem ofJson_eq_malformed {j : Json} (h : ¬ ∃ p q, Json.ArePoints "start" "end" p q j) :
    ofJson j = .error .malformed := by
  unfold ofJson
  split
  case h_1 => rfl
  case h_2 hsome =>
    obtain ⟨p, q, hpoints, -⟩ := (Json.points_eq_some_iff (f := Prod.mk) (by decide)).mp hsome
    exact absurd ⟨p, q, hpoints⟩ h

/-- A span comes out just if there are two points in order. -/
theorem ofJson_eq_ok_iff {j : Json} {s : Span} :
    ofJson j = .ok s ↔ s.start ≤ s.stop ∧ Json.ArePoints "start" "end" s.start s.stop j := by
  constructor
  · intro h
    by_cases hpoints : ∃ p q, Json.ArePoints "start" "end" p q j
    · obtain ⟨p, q, hpoints⟩ := hpoints
      rw [ofJson_eq hpoints, between] at h
      split at h
      case isTrue => exact nomatch h
      case isFalse horder =>
        cases h
        exact ⟨Point.not_lt.mp horder, hpoints⟩
    · rw [ofJson_eq_malformed hpoints] at h
      exact nomatch h
  · rintro ⟨horder, hpoints⟩
    rw [ofJson_eq hpoints, between, if_neg (Point.not_lt.mpr horder)]
    rfl

/-- Two points that are not in order are what the fault names. -/
theorem ofJson_eq_inverted_iff {j : Json} {e : Inverted} :
    ofJson j = .error (.inverted e) ↔
      e.stop < e.start ∧ Json.ArePoints "start" "end" e.start e.stop j := by
  constructor
  · intro h
    by_cases hpoints : ∃ p q, Json.ArePoints "start" "end" p q j
    · obtain ⟨p, q, hpoints⟩ := hpoints
      rw [ofJson_eq hpoints, between] at h
      split at h
      case isTrue horder =>
        cases h
        exact ⟨horder, hpoints⟩
      case isFalse => exact nomatch h
    · rw [ofJson_eq_malformed hpoints] at h
      exact nomatch h
  · rintro ⟨horder, hpoints⟩
    rw [ofJson_eq hpoints, between, if_pos horder]
    rfl

end Span

/-- A selection is made of any two points. -/
theorem Selection.ofJson_eq {j : Json} {s : Selection}
    (h : Json.ArePoints "anchor" "active" s.anchor s.active j) : ofJson j = .ok s := by
  have hpoints :=
    (Json.points_eq_some_iff (f := Selection.mk) (by decide)).mpr ⟨_, _, h, rfl⟩
  rw [ofJson, hpoints]

/-! ### What is written -/

namespace Json

/-- A record is faithful if its values are. -/
theorem faithful_record {ms : List (String × Json)} (h : ∀ m ∈ ms, Faithful m.2) :
    Faithful (record ms) := by
  refine .object ?_ ?_
  all_goals
    intro m hm
    obtain ⟨m, hmem, rfl⟩ := List.mem_map.mp hm
  · rfl
  · exact h m hmem

theorem isPair_record (first second : String) (a b : Json) :
    IsPair first second a b (record [(first, a), (second, b)]) :=
  .object (.refl _) nofun

/-- A point is read back if its coordinates fit. -/
theorem isPoint_toJson {p : Point} (h : p.Fits) : IsPoint p p.toJson :=
  ⟨isPair_record _ _ _ _, h⟩

theorem faithful_toJson (p : Point) : Faithful p.toJson :=
  faithful_record (by simp [Faithful.natural])

theorem faithful_points (first second : String) (p q : Point) :
    Faithful (record [(first, p.toJson), (second, q.toJson)]) :=
  faithful_record (by simp [faithful_toJson])

/-- Two points are read back if their coordinates fit. -/
theorem arePoints_record (first second : String) {p q : Point} (hp : p.Fits) (hq : q.Fits) :
    ArePoints first second p q (record [(first, p.toJson), (second, q.toJson)]) :=
  ⟨_, _, isPair_record _ _ _ _, isPoint_toJson hp, isPoint_toJson hq⟩

/-- **Decoding keeps the order of spans.**  A span comes out of a text just if all of it is a
record of two points in order, encoded in any way, and then those are its points.  If it begins
with a record of points that are not in order, the fault names them.  Written spans in order come
back, in whatever encoding they are written, and so do selections, backwards ones too. -/
theorem decode_keeps_order :
    (∀ (text : List Char) (s : Span), Span.decode text = .ok s ↔
      s.start ≤ s.stop ∧ ∃ j rest, read? text = some (j, rest) ∧ skipBlanks rest = [] ∧
        ArePoints "start" "end" s.start s.stop j) ∧
    (∀ (text : List Char) (e : Span.Inverted), Span.decode text = .error (.inverted e) ↔
      e.stop < e.start ∧ ∃ j rest, read? text = some (j, rest) ∧
        ArePoints "start" "end" e.start e.stop j) ∧
    (∀ (j : Json) (s : Span), Faithful j → ArePoints "start" "end" s.start s.stop j →
      s.start ≤ s.stop → Span.decode j.compact = .ok s) ∧
    (∀ s : Span, s.start ≤ s.stop → s.start.Fits → s.stop.Fits →
      Span.decode s.toJson.compact = .ok s) ∧
    ∀ s : Selection, s.anchor.Fits → s.active.Fits → Selection.decode s.toJson.compact = .ok s := by
  have hwritten : ∀ (j : Json) (s : Span), Faithful j → ArePoints "start" "end" s.start s.stop j →
      s.start ≤ s.stop → Span.decode j.compact = .ok s := by
    intro j s hfaithful hpoints horder
    exact (decode_compact hfaithful).trans (Span.ofJson_eq_ok_iff.mpr ⟨horder, hpoints⟩)
  refine ⟨fun text s => ?_, fun text e => ?_, hwritten, fun s horder hstart hstop => ?_,
    fun s hanchor hactive => ?_⟩
  · simp only [Span.decode, decode_eq_ok_iff, Span.ofJson_eq_ok_iff]
    constructor
    · rintro ⟨j, rest, hread, hrest, horder, hpoints⟩
      exact ⟨horder, j, rest, hread, hrest, hpoints⟩
    · rintro ⟨horder, j, rest, hread, hrest, hpoints⟩
      exact ⟨j, rest, hread, hrest, horder, hpoints⟩
  · simp only [Span.decode, decode_eq_inverted_iff, Span.ofJson_eq_inverted_iff]
    constructor
    · rintro ⟨j, rest, hread, horder, hpoints⟩
      exact ⟨horder, j, rest, hread, hpoints⟩
    · rintro ⟨horder, j, rest, hread, hpoints⟩
      exact ⟨j, rest, hread, horder, hpoints⟩
  · exact hwritten _ s (faithful_points _ _ _ _) (arePoints_record _ _ hstart hstop) horder
  · exact (decode_compact (faithful_points _ _ _ _)).trans
      (Selection.ofJson_eq (arePoints_record _ _ hanchor hactive))

/-- A span with its end first, a field more, and its start as an array; and a selection from the
last line that there can be, backwards. -/
theorem decode_keeps_order_encoded :
    let start : Json := .array [.natural 1, .natural 10]
    let stop : Point := ⟨2, 7⟩
    let kind : Spelled × Json := (some "kind".toList, .array [.null, text "x"])
    let j : Json :=
      .object [(some "end".toList, stop.toJson), kind, (some "start".toList, start)]
    let s : Selection := ⟨⟨18446744073709551615, 0⟩, ⟨1, 9⟩⟩
    Faithful j ∧ ArePoints "start" "end" ⟨1, 10⟩ stop j ∧ (⟨1, 10⟩ : Point) ≤ stop ∧
      Span.decode j.compact = .ok ⟨⟨1, 10⟩, stop⟩ ∧ s.anchor.Fits ∧ s.active.Fits ∧
      Selection.decode s.toJson.compact = .ok s := by
  intro start stop kind j s
  have hstart : Faithful start := .array (by simp [Faithful.natural])
  have hkind : Faithful kind.2 := .array (by simp [Faithful.null, Faithful.string, text])
  have hfaithful : Faithful j :=
    .object (by simp [kind]) (by simp [faithful_toJson, hstart, hkind])
  have hperm : ([(some "end".toList, stop.toJson), kind] ++ [(some "start".toList, start)]).Perm
      ([(some "start".toList, start)] ++ [(some "end".toList, stop.toJson), kind]) :=
    List.perm_append_comm
  have hpoints : ArePoints "start" "end" ⟨1, 10⟩ stop j :=
    ⟨_, _, .object hperm (by simp [kind]), ⟨.array, by decide, by decide⟩,
      isPoint_toJson ⟨by decide, by decide⟩⟩
  have horder : (⟨1, 10⟩ : Point) ≤ stop := by decide
  have hanchor : s.anchor.Fits := ⟨by decide, by decide⟩
  have hactive : s.active.Fits := ⟨by decide, by decide⟩
  obtain ⟨-, -, hspan, -, hselection⟩ := decode_keeps_order
  exact ⟨hfaithful, hpoints, horder, hspan j ⟨⟨1, 10⟩, stop⟩ hfaithful hpoints horder, hanchor,
    hactive, hselection s hanchor hactive⟩

end Json

end SqlCaret
