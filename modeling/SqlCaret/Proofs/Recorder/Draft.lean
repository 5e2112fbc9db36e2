import Mathlib.Data.List.ReduceOption
import SqlCaret.Syntax.Recorder

/-!
# Recorder — drafts

A recorder knows a marker by the place of its placeholder.  The events grow and shrink around these
places: an abandoned placeholder goes if it is the latest event, and stays if not.

A `Draft` is what is recorded, with the places left out.  A marker is a hole that has the marker's
number, `complete` fills the hole and `abandon` takes it out, wherever it is.  An action has no
outcome only where there is no such hole.

`Shows d w xs` says that the desk `d` holds the draft `w`, with the slots of `w` in the places that
`xs` tells and an abandoned placeholder in every other place.  What a draft does, a desk that shows
it does as well (`Shows.act`, `Shows.run`).
-/

namespace SqlCaret.Recorder

/-- A place in a draft. -/
inductive Slot where
  | event (e : Event)
  /-- The marker that was started as this one, not used yet. -/
  | hole (started : Nat)
deriving DecidableEq

namespace Slot

/-- Makes the hole of marker `i` the beginning of a node. -/
def fill (i : Nat) (k : Kind) (s : Slot) : Slot := if s = hole i then event (.start k) else s

/-- The event that is recorded for what is in a place: a placeholder for a hole, and for a hole that
was taken out. -/
def recorded : Option Slot → Event
  | some (event e) => e
  | some (hole _) => .placeholder
  | none => .placeholder

theorem hole_mem_map_fill {i j : Nat} {k : Kind} {ss : List Slot} :
    hole j ∈ ss.map (fill i k) ↔ hole j ∈ ss ∧ j ≠ i := by
  have hfill : ∀ s, fill i k s = hole j ↔ s = hole j ∧ j ≠ i := by
    intro s
    rw [fill]
    split <;> grind
  simp only [List.mem_map, hfill, ← and_assoc, exists_and_right, exists_eq_right]

end Slot

/-- What a recorder has recorded, its open markers told by their numbers. -/
structure Draft where
  cursor : Cursor
  slots : List Slot := []
  /-- How many markers were started. -/
  started : Nat := 0
  problems : List Problem := []

namespace Draft

/-- Records the token ahead, if there is one. -/
def bump (w : Draft) : Draft :=
  if w.cursor.atEnd then w
  else
    { w with
      slots := w.slots ++ [.event (.token (w.cursor.kind 0))]
      cursor := w.cursor.advance }

/-- Does one action; it has no outcome if the hole it asks for is not there. -/
def act (w : Draft) : Action → Option Draft
  | .start => some { w with slots := w.slots ++ [.hole w.started], started := w.started + 1 }
  | .bump => some w.bump
  | .eat k => some (if w.cursor.atKind k then w.bump else w)
  | .report fault => some { w with problems := w.problems ++ [⟨fault, w.cursor.index⟩] }
  | .complete i k =>
    if .hole i ∈ w.slots then
      some { w with slots := w.slots.map (Slot.fill i k) ++ [.event .finish] }
    else none
  | .abandon i =>
    if .hole i ∈ w.slots then some { w with slots := w.slots.filter (· ≠ .hole i) } else none
  | .forget _ => none

/-- Does actions one after the other, as far as each has an outcome. -/
def run (w : Draft) : List Action → Option Draft
  | [] => some w
  | a :: as => (w.act a).bind (run · as)

/-- The events of a draft, with a placeholder for every hole. -/
def events (w : Draft) : List Event := w.slots.map fun s => Slot.recorded (some s)

@[simp] theorem started_bump (w : Draft) : w.bump.started = w.started := by
  rw [bump]
  split <;> rfl

@[simp] theorem hole_mem_bump {w : Draft} {i : Nat} :
    .hole i ∈ w.bump.slots ↔ .hole i ∈ w.slots := by
  rw [bump]
  split <;> simp

/-- A marker can be completed just if its hole is there. -/
theorem act_complete_eq_some_iff {w w' : Draft} {i : Nat} {k : Kind} :
    w.act (.complete i k) = some w' ↔ .hole i ∈ w.slots ∧
      w' = { w with slots := w.slots.map (Slot.fill i k) ++ [.event .finish] } := by
  rw [act, Option.ite_none_right_eq_some, Option.some.injEq, eq_comm]

/-- A marker can be abandoned just if its hole is there. -/
theorem act_abandon_eq_some_iff {w w' : Draft} {i : Nat} :
    w.act (.abandon i) = some w' ↔ .hole i ∈ w.slots ∧
      w' = { w with slots := w.slots.filter (· ≠ .hole i) } := by
  rw [act, Option.ite_none_right_eq_some, Option.some.injEq, eq_comm]

theorem run_append (w : Draft) (as bs : List Action) :
    w.run (as ++ bs) = (w.run as).bind (·.run bs) := by
  induction as generalizing w with
  | nil => rfl
  | cons a as ih =>
      rw [List.cons_append, run, run, Option.bind_assoc]
      exact congrArg _ (funext ih)

end Draft

/-! ### Lists with places -/

section
variable {α : Type} {xs : List α} {x y : α} {m n : Nat}

theorem getElem?_concat_iff :
    (xs ++ [x])[n]? = some y ↔ xs[n]? = some y ∨ n = xs.length ∧ x = y := by
  rcases Nat.lt_trichotomy n xs.length with h | rfl | h
  · rw [List.getElem?_append_left h]
    simp [Nat.ne_of_lt h]
  · simp
  · rw [List.getElem?_eq_none (by simp; omega), List.getElem?_eq_none (Nat.le_of_lt h)]
    simp [Nat.ne_of_gt h]

theorem getElem?_set_iff (hne : x ≠ y) : (xs.set m x)[n]? = some y ↔ m ≠ n ∧ xs[n]? = some y := by
  rw [List.getElem?_set]
  by_cases h : m = n
  · subst h
    simp [hne]
  · simp [h]

/-- A change of one entry is a map that changes no other. -/
theorem set_eq_map {f : α → α} (hx : xs[m]? = some x) (hf : f x = y)
    (hothers : ∀ n z, xs[n]? = some z → n ≠ m → f z = z) : xs.set m y = xs.map f := by
  obtain ⟨hm, -⟩ := List.getElem?_eq_some_iff.mp hx
  refine List.ext_getElem? fun n => ?_
  rw [List.getElem?_map]
  by_cases h : n = m
  · subst h
    rw [List.getElem?_set_self hm, hx, Option.map_some, hf]
  · rw [List.getElem?_set_ne (Ne.symm h)]
    cases hn : xs[n]? with
    | none => rfl
    | some z => rw [Option.map_some, hothers n z hn h]

/-- A change of the last entry leaves those in front of it. -/
theorem set_eq_dropLast_append (h : xs.length = m + 1) : xs.set m x = xs.dropLast ++ [x] := by
  obtain ⟨ys, y, rfl⟩ : ∃ ys y, xs = ys ++ [y] :=
    ⟨_, _, (List.dropLast_append_getLast (List.ne_nil_of_length_pos (by omega))).symm⟩
  obtain rfl : m = ys.length := by simpa using h.symm
  simp

/-- What a map leaves out of a list with gaps becomes a gap. -/
theorem reduceOption_map_filter (p : α → Bool) (xs : List (Option α)) :
    (xs.map (Option.filter p)).reduceOption = xs.reduceOption.filter p := by
  induction xs with
  | nil => rfl
  | cons x xs ih =>
      cases x with
      | none => exact ih
      | some x =>
          rw [List.map_cons, List.reduceOption_cons_of_some, List.filter_cons, ← ih]
          by_cases h : p x = true
          · rw [if_pos h, Option.filter_some, if_pos h, List.reduceOption_cons_of_some]
          · rw [if_neg h, Option.filter_some, if_neg h, List.reduceOption_cons_of_none]

end

/-! ### Markers and their places -/

/-- The markers that are not used yet are the places of their holes. -/
def Tracks (markers : List (Option Nat)) (xs : List (Option Slot)) : Prop :=
  ∀ i m, markers[i]? = some (some m) ↔ xs[m]? = some (some (Slot.hole i))

namespace Tracks

variable {markers : List (Option Nat)} {xs : List (Option Slot)} {i m : Nat} {x : Option Slot}

/-- A marker that is started tracks the hole behind all others. -/
theorem start (h : Tracks markers xs) :
    Tracks (markers ++ [some xs.length]) (xs ++ [some (.hole markers.length)]) := by
  intro i m
  rw [getElem?_concat_iff, getElem?_concat_iff, h i m]
  simp only [Option.some.injEq, Slot.hole.injEq]
  exact or_congr_right ⟨fun ⟨hi, hm⟩ => ⟨hm.symm, hi.symm⟩, fun ⟨hm, hi⟩ => ⟨hi.symm, hm.symm⟩⟩

/-- What is no hole may come and go at the end. -/
theorem concat_iff (hx : ∀ j, x ≠ some (.hole j)) :
    Tracks markers (xs ++ [x]) ↔ Tracks markers xs := by
  simp only [Tracks, getElem?_concat_iff, hx, and_false, or_false]

/-- A hole is filled or taken out as its marker is used. -/
theorem set (h : Tracks markers xs) (hm : markers[i]? = some (some m))
    (hx : ∀ j, x ≠ some (.hole j)) : Tracks (markers.set i none) (xs.set m x) := by
  intro j n
  rw [getElem?_set_iff (by simp), getElem?_set_iff (hx j), h j n]
  refine and_congr_left fun hn => not_congr ⟨?_, ?_⟩
  · rintro rfl
    rw [(h i n).mpr hn] at hm
    exact (Option.some.inj (Option.some.inj hm)).symm
  · rintro rfl
    rw [(h i m).mp hm] at hn
    injection Option.some.inj (Option.some.inj hn)

/-- No other place has the same hole. -/
theorem place_eq {n : Nat} (h : Tracks markers xs) (hm : markers[i]? = some (some m))
    (hn : xs[n]? = some (some (.hole i))) : n = m := by
  rw [(h i n).mpr hn] at hm
  exact Option.some.inj (Option.some.inj hm)

/-- What stands in another place is not the hole. -/
theorem ne_hole {n : Nat} {s : Slot} (h : Tracks markers xs) (hm : markers[i]? = some (some m))
    (hs : xs[n]? = some (some s)) (hne : n ≠ m) : s ≠ .hole i := by
  rintro rfl
  exact hne (h.place_eq hm hs)

end Tracks

/-- A marker is known while it is open. -/
theorem Desk.marker?_eq_some_iff {d : Desk} {i m : Nat} :
    d.marker? i = some m ↔ d.markers[i]? = some (some m) := by
  rw [Desk.marker?, Option.bind_eq_some_iff]
  simp

/-! ### Desks that show a draft -/

/-- The desk holds the draft, slot by slot in the places of `xs` that are not empty. -/
structure Shows (d : Desk) (w : Draft) (xs : List (Option Slot)) : Prop where
  cursor : d.recorder.cursor = w.cursor
  problems : d.recorder.problems = w.problems
  started : d.markers.length = w.started
  slots : xs.reduceOption = w.slots
  events : d.recorder.events.toList = xs.map Slot.recorded
  tracks : Tracks d.markers xs

namespace Shows

variable {d : Desk} {w w' : Draft} {xs : List (Option Slot)} {i m : Nat}

/-- There are as many events as places. -/
theorem size_eq (h : Shows d w xs) : d.recorder.events.size = xs.length := by
  rw [← Array.length_toList, h.events, List.length_map]

/-- **The place of a marker holds a placeholder**, as long as the marker is not used. -/
theorem placeholder (h : Shows d w xs) (hm : d.marker? i = some m) :
    d.recorder.events[m]? = some .placeholder := by
  have hplace := (h.tracks i m).mp (Desk.marker?_eq_some_iff.mp hm)
  rw [← Array.getElem?_toList, h.events, List.getElem?_map, hplace]
  rfl

/-- Every hole has a marker. -/
theorem exists_marker (h : Shows d w xs) : .hole i ∈ w.slots ↔ ∃ m, d.marker? i = some m := by
  rw [← h.slots, List.reduceOption_mem_iff, List.mem_iff_getElem?]
  exact exists_congr fun m => (h.tracks i m).symm.trans Desk.marker?_eq_some_iff.symm

theorem start (h : Shows d w xs) :
    ∃ d' xs', d.act .start = some d' ∧
      Shows d' { w with slots := w.slots ++ [.hole w.started], started := w.started + 1 } xs' := by
  refine ⟨_, xs ++ [some (.hole d.markers.length)], rfl, ⟨h.cursor, h.problems, ?_, ?_, ?_, ?_⟩⟩
  · rw [List.length_append, h.started]
    rfl
  · rw [List.reduceOption_append, h.slots, h.started]
    rfl
  · simp [h.events, Slot.recorded]
  · simp only [h.size_eq]
    exact h.tracks.start

theorem bump (h : Shows d w xs) :
    ∃ xs', Shows { d with recorder := d.recorder.bump } w.bump xs' := by
  rw [Recorder.bump, Draft.bump, h.cursor]
  split
  · exact ⟨xs, h⟩
  · refine ⟨xs ++ [some (.event (.token (w.cursor.kind 0)))], rfl, h.problems, h.started, ?_, ?_,
      (Tracks.concat_iff (by simp)).mpr h.tracks⟩
    · rw [List.reduceOption_append, h.slots]
      rfl
    · simp [h.events, Slot.recorded]

/-- The placeholder becomes the beginning of a node, and its end is recorded. -/
theorem complete (h : Shows d w xs) (k : Kind) (hi : .hole i ∈ w.slots) :
    ∃ d' xs', d.act (.complete i k) = some d' ∧
      Shows d' { w with slots := w.slots.map (Slot.fill i k) ++ [.event .finish] } xs' := by
  obtain ⟨m, hm⟩ := h.exists_marker.mp hi
  have hmarker := Desk.marker?_eq_some_iff.mp hm
  have hplace := (h.tracks i m).mp hmarker
  -- the place of the marker is the only one with its hole
  have hset : xs.set m (some (.event (.start k))) = xs.map (Option.map (Slot.fill i k)) := by
    refine set_eq_map hplace (by simp [Slot.fill]) fun n z hz hn => ?_
    cases z with
    | none => rfl
    | some s => rw [Option.map_some, Slot.fill, if_neg (h.tracks.ne_hole hmarker hz hn)]
  let r : Recorder :=
    { d.recorder with events := (d.recorder.events.setIfInBounds m (.start k)).push .finish }
  refine ⟨{ d.use i with recorder := r },
    xs.set m (some (.event (.start k))) ++ [some (.event .finish)], ?_,
    h.cursor, h.problems, (List.length_set ..).trans h.started, ?_, ?_, ?_⟩
  · simp only [Desk.act, hm, Option.bind_some, Recorder.complete, h.placeholder hm, if_true,
      Option.map_some, r]
  · rw [hset, List.reduceOption_append, List.reduceOption_map, h.slots]
    rfl
  · simp [r, h.events, Slot.recorded, List.map_set]
  · exact (Tracks.concat_iff (by simp)).mpr (h.tracks.set hmarker (by simp))

/-- The placeholder goes or stays, but its place is empty. -/
theorem abandon (h : Shows d w xs) (hi : .hole i ∈ w.slots) :
    ∃ d' xs', d.act (.abandon i) = some d' ∧
      Shows d' { w with slots := w.slots.filter (· ≠ .hole i) } xs' := by
  obtain ⟨m, hm⟩ := h.exists_marker.mp hi
  have hmarker := Desk.marker?_eq_some_iff.mp hm
  have hplace := (h.tracks i m).mp hmarker
  -- only the place of the marker holds its hole, so emptying that place takes the hole out
  have hset : xs.set m none = xs.map (Option.filter (· ≠ .hole i)) := by
    refine set_eq_map hplace (by simp) fun n z hz hn => ?_
    cases z with
    | none => rfl
    | some s =>
        have hs : s ≠ .hole i := h.tracks.ne_hole hmarker hz hn
        rw [Option.filter_some, if_pos (by simpa using hs)]
  have hslots : (xs.set m none).reduceOption = w.slots.filter (· ≠ .hole i) := by
    rw [hset, reduceOption_map_filter, h.slots]
  have htracks : Tracks (d.markers.set i none) (xs.set m none) := h.tracks.set hmarker (by simp)
  have hne : d.recorder.events.isEmpty = false := by
    rw [Array.isEmpty_eq_false_iff_exists_mem]
    exact ⟨_, Array.mem_of_getElem? (h.placeholder hm)⟩
  have habandon : d.act (.abandon i) =
      (d.recorder.abandon m).map fun r => { d.use i with recorder := r } := by
    rw [Desk.act, hm, Option.bind_some]
  by_cases hlast : m + 1 = d.recorder.events.size
  · -- the placeholder is the latest event, and goes
    have hback : d.recorder.events.back? = some .placeholder := by
      rw [Array.back?_eq_getElem?, ← hlast, Nat.add_sub_cancel]
      exact h.placeholder hm
    have hxs : xs.set m none = xs.dropLast ++ [none] :=
      set_eq_dropLast_append (by rw [← h.size_eq, hlast])
    let r : Recorder := { d.recorder with events := d.recorder.events.pop }
    refine ⟨{ d.use i with recorder := r }, xs.dropLast, ?_, h.cursor, h.problems,
      (List.length_set ..).trans h.started, ?_, ?_, ?_⟩
    · rw [habandon, Recorder.abandon, hne, if_neg Bool.false_ne_true, if_pos hlast, if_pos hback]
      rfl
    · rw [hxs, List.reduceOption_append] at hslots
      simpa using hslots
    · rw [Array.toList_pop, h.events, List.map_dropLast]
    · rw [hxs, Tracks.concat_iff (by simp)] at htracks
      exact htracks
  · -- the placeholder stays, and does not count from now on
    refine ⟨d.use i, xs.set m none, ?_, h.cursor, h.problems,
      (List.length_set ..).trans h.started, hslots, ?_, htracks⟩
    · rw [habandon, Recorder.abandon, hne, if_neg Bool.false_ne_true, if_neg hlast]
      rfl
    · have hrecorded : (xs.map Slot.recorded)[m]? = some .placeholder := by
        rw [List.getElem?_map, hplace]
        rfl
      obtain ⟨hm', heq⟩ := List.getElem?_eq_some_iff.mp hrecorded
      rw [List.map_set, show Slot.recorded none = .placeholder from rfl, ← heq,
        List.set_getElem_self]
      exact h.events

/-- **What a draft does, a desk that shows it does.** -/
theorem act {a : Action} (h : Shows d w xs) (ha : w.act a = some w') :
    ∃ d' xs', d.act a = some d' ∧ Shows d' w' xs' := by
  cases a with
  | start =>
      obtain rfl := Option.some.inj ha
      exact h.start
  | bump =>
      obtain rfl := Option.some.inj ha
      obtain ⟨xs', h'⟩ := h.bump
      exact ⟨_, xs', rfl, h'⟩
  | eat k =>
      obtain rfl := Option.some.inj ha
      rw [Desk.act, Recorder.eat, h.cursor]
      split
      · obtain ⟨xs', h'⟩ := h.bump
        exact ⟨_, xs', rfl, h'⟩
      · exact ⟨_, xs, rfl, h⟩
  | report fault =>
      obtain rfl := Option.some.inj ha
      refine ⟨_, xs, rfl, h.cursor, ?_, h.started, h.slots, h.events, h.tracks⟩
      simp only [Recorder.report, h.problems, h.cursor]
  | complete i k =>
      obtain ⟨hi, rfl⟩ := Draft.act_complete_eq_some_iff.mp ha
      exact h.complete k hi
  | abandon i =>
      obtain ⟨hi, rfl⟩ := Draft.act_abandon_eq_some_iff.mp ha
      exact h.abandon hi
  | forget i => cases ha

/-- **What a draft does, a desk that shows it does too**, over any number of actions. -/
theorem run {as : List Action} (h : Shows d w xs) (ha : w.run as = some w') :
    ∃ d' xs', d.run as = some d' ∧ Shows d' w' xs' := by
  induction as generalizing d w xs with
  | nil =>
      obtain rfl := Option.some.inj ha
      exact ⟨d, xs, rfl, h⟩
  | cons a as ih =>
      obtain ⟨w₁, ha₁, ha⟩ := Option.bind_eq_some_iff.mp ha
      obtain ⟨d₁, xs₁, hd₁, h₁⟩ := h.act ha₁
      obtain ⟨d', xs', hd, h'⟩ := ih h₁ ha
      exact ⟨d', xs', by rw [Desk.run, hd₁, Option.bind_some, hd], h'⟩

end Shows

end SqlCaret.Recorder
