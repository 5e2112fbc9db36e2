import SqlCaret.Proofs.Recorder.Draft
import SqlCaret.Proofs.Tree.Balanced

/-!
# Recorder — markers

Which markers are there after some actions (`Live`), and which actions are as they should be
(`Lawful`): none of them uses a marker that is not there, and none lets one go unused.  Nothing is
said of the order in which markers are used.

A draft takes all lawful actions and has a hole for each live marker, and no other
(`Holds.act`, `Holds.run`).  What it has recorded and what is ahead are all of the tokens, whatever
comes to pass (`Draft.allTokens_run`).
-/

namespace SqlCaret.Recorder

/-- The marker that an action uses. -/
def Action.marker? : Action → Option Nat
  | complete i _ => some i
  | abandon i => some i
  | forget i => some i
  | _ => none

/-- The marker started as the `i`-th is there after `as`: it was started, and was not used. -/
def Live (as : List Action) (i : Nat) : Prop :=
  i < as.count .start ∧ i ∉ as.filterMap Action.marker?

/-- An action that may come after `as`. -/
def Action.Allowed (as : List Action) : Action → Prop
  | complete i _ => Live as i
  | abandon i => Live as i
  | forget _ => False
  | _ => True

/-- Each action may come after those before it. -/
def Lawful (as : List Action) : Prop := ∀ n, (h : n < as.length) → as[n].Allowed (as.take n)

instance (as : List Action) (i : Nat) : Decidable (Live as i) :=
  inferInstanceAs (Decidable (_ ∧ _))

instance (as : List Action) : (a : Action) → Decidable (a.Allowed as)
  | .complete i _ => inferInstanceAs (Decidable (Live as i))
  | .abandon i => inferInstanceAs (Decidable (Live as i))
  | .forget _ => inferInstanceAs (Decidable False)
  | .start | .bump | .eat _ | .report _ => inferInstanceAs (Decidable True)

instance (as : List Action) : Decidable (Lawful as) :=
  inferInstanceAs (Decidable (∀ n, (h : n < as.length) → as[n].Allowed (as.take n)))

variable {as bs : List Action} {a : Action} {i : Nat}

/-- Only a live marker is used. -/
theorem Action.Allowed.live (h : a.Allowed as) (hi : a.marker? = some i) : Live as i := by
  cases a with
  | complete j k =>
      obtain rfl := Option.some.inj hi
      exact h
  | abandon j =>
      obtain rfl := Option.some.inj hi
      exact h
  | forget j => exact h.elim
  | _ => cases hi

theorem Lawful.allowed (h : Lawful (as ++ a :: bs)) : a.Allowed as := by
  have ha := h as.length (by simp)
  simpa using ha

theorem Lawful.of_append (h : Lawful (as ++ bs)) : Lawful as := by
  intro n hn
  have ha := h n (by simp; omega)
  rwa [List.getElem_append_left hn, List.take_append_of_le_length (Nat.le_of_lt hn)] at ha

/-- A marker that was used is not used again. -/
theorem Lawful.not_used (h : Lawful (as ++ bs)) (hi : i ∈ as.filterMap Action.marker?) :
    i ∉ bs.filterMap Action.marker? := by
  intro hbs
  obtain ⟨b, hb, hmarker⟩ := List.mem_filterMap.mp hbs
  obtain ⟨bs₁, bs₂, rfl⟩ := List.append_of_mem hb
  rw [← List.append_assoc] at h
  obtain ⟨-, hfresh⟩ := h.allowed.live hmarker
  rw [List.filterMap_append] at hfresh
  exact hfresh (List.mem_append_left _ hi)

theorem count_start_concat (h : a ≠ .start) :
    (as ++ [a]).count .start = as.count .start := by
  rw [List.count_append, List.count_singleton]
  simp [h]

/-! ### Lawful actions on a draft -/

/-- After `as` the draft has the holes of the live markers. -/
structure Holds (as : List Action) (w : Draft) : Prop where
  started : w.started = as.count .start
  hole_iff : ∀ i, .hole i ∈ w.slots ↔ Live as i
  /-- Only what was started was used. -/
  used_lt : ∀ i ∈ as.filterMap Action.marker?, i < as.count .start

namespace Holds

variable {w : Draft}

theorem init (c : Cursor) : Holds [] { cursor := c } where
  started := rfl
  hole_iff i := by simp [Live]
  used_lt i hi := by simp at hi

/-- What neither starts a marker nor uses one changes nothing. -/
theorem concat {w' : Draft} (h : Holds as w) (hstart : a ≠ .start) (hmarker : a.marker? = none)
    (hstarted : w'.started = w.started) (hslots : ∀ i, .hole i ∈ w'.slots ↔ .hole i ∈ w.slots) :
    Holds (as ++ [a]) w' := by
  have hcount : (as ++ [a]).count .start = as.count .start := count_start_concat hstart
  have hused : (as ++ [a]).filterMap Action.marker? = as.filterMap Action.marker? := by
    rw [List.filterMap_append]
    simp [hmarker]
  refine ⟨?_, fun i => ?_, ?_⟩
  · rw [hstarted, hcount, h.started]
  · rw [hslots, h.hole_iff, Live, Live, hcount, hused]
  · rw [hcount, hused]
    exact h.used_lt

/-- The latest marker is new. -/
theorem start (h : Holds as w) :
    Holds (as ++ [.start])
      { w with slots := w.slots ++ [.hole w.started], started := w.started + 1 } := by
  have hcount : (as ++ [Action.start]).count .start = as.count .start + 1 := by
    rw [List.count_append]
    rfl
  have hused : (as ++ [Action.start]).filterMap Action.marker? = as.filterMap Action.marker? := by
    rw [List.filterMap_append]
    exact List.append_nil _
  refine ⟨?_, fun i => ?_, fun i hi => ?_⟩
  · rw [hcount, h.started]
  · rw [List.mem_append, h.hole_iff, Live, Live, hcount, hused, List.mem_singleton,
      Slot.hole.injEq, h.started]
    constructor
    · rintro (⟨hlt, hnot⟩ | rfl)
      · exact ⟨Nat.lt_succ_of_lt hlt, hnot⟩
      · exact ⟨Nat.lt_succ_self _, fun hi => Nat.lt_irrefl _ (h.used_lt _ hi)⟩
    · rintro ⟨hlt, hnot⟩
      rcases Nat.lt_succ_iff_lt_or_eq.mp hlt with hlt | rfl
      · exact .inl ⟨hlt, hnot⟩
      · exact .inr rfl
  · rw [hused] at hi
    rw [hcount]
    exact Nat.lt_succ_of_lt (h.used_lt i hi)

/-- A marker that is used is gone. -/
theorem use {w' : Draft} (h : Holds as w) (hlive : Live as i) (hstart : a ≠ .start)
    (hmarker : a.marker? = some i) (hstarted : w'.started = w.started)
    (hslots : ∀ j, .hole j ∈ w'.slots ↔ .hole j ∈ w.slots ∧ j ≠ i) :
    Holds (as ++ [a]) w' := by
  have hcount : (as ++ [a]).count .start = as.count .start := count_start_concat hstart
  have hused : (as ++ [a]).filterMap Action.marker? = as.filterMap Action.marker? ++ [i] := by
    rw [List.filterMap_append]
    simp [hmarker]
  refine ⟨?_, fun j => ?_, fun j hj => ?_⟩
  · rw [hstarted, hcount, h.started]
  · rw [hslots, h.hole_iff, Live, Live, hcount, hused, List.mem_append, List.mem_singleton,
      not_or, and_assoc]
  · rw [hused, List.mem_append, List.mem_singleton] at hj
    rw [hcount]
    rcases hj with hj | rfl
    · exact h.used_lt j hj
    · exact hlive.1

theorem act (h : Holds as w) (ha : a.Allowed as) :
    ∃ w', w.act a = some w' ∧ Holds (as ++ [a]) w' := by
  cases a with
  | start => exact ⟨_, rfl, h.start⟩
  | bump => exact ⟨_, rfl, h.concat (by simp) rfl (by simp) (by simp)⟩
  | eat k =>
      refine ⟨_, rfl, h.concat (by simp) rfl ?_ fun i => ?_⟩
      · split
        · exact Draft.started_bump w
        · rfl
      · split
        · exact Draft.hole_mem_bump
        · rfl
  | report fault => exact ⟨_, rfl, h.concat (by simp) rfl rfl (by simp)⟩
  | complete i k =>
      refine ⟨_, if_pos ((h.hole_iff i).mpr ha), h.use ha (by simp) rfl rfl fun j => ?_⟩
      simp [Slot.hole_mem_map_fill]
  | abandon i =>
      refine ⟨_, if_pos ((h.hole_iff i).mpr ha), h.use ha (by simp) rfl rfl fun j => ?_⟩
      simp
  | forget i => exact ha.elim

/-- **A draft takes all that is lawful.** -/
theorem run (h : Holds as w) (hlawful : Lawful (as ++ bs)) :
    ∃ w', w.run bs = some w' ∧ Holds (as ++ bs) w' := by
  induction bs generalizing as w with
  | nil => exact ⟨w, rfl, by rwa [List.append_nil]⟩
  | cons b bs ih =>
      obtain ⟨w₁, hact, h₁⟩ := h.act hlawful.allowed
      rw [List.append_cons] at hlawful ⊢
      obtain ⟨w', hrun, h'⟩ := ih h₁ hlawful
      exact ⟨w', by rw [Draft.run, hact, Option.bind_some, hrun], h'⟩

end Holds

theorem Lawful.exists_run (h : Lawful as) (c : Cursor) :
    ∃ w, ({ cursor := c } : Draft).run as = some w ∧ Holds as w := (Holds.init c).run h

/-! ### What is recorded -/

/-- The token that is recorded in a place. -/
def Slot.token? : Slot → Option Kind
  | event (.token k) => some k
  | _ => none

theorem Slot.token?_fill (k : Kind) (s : Slot) : (s.fill i k).token? = s.token? := by
  rw [fill]
  split
  · subst s
    rfl
  · rfl

/-- The kinds of the tokens that a draft has passed. -/
def Draft.tokens (w : Draft) : List Kind := w.slots.filterMap Slot.token?

/-- The tokens that were passed and those that are ahead. -/
def Draft.allTokens (w : Draft) : List Kind := w.tokens ++ w.cursor.ahead.map Mark.kind

theorem Draft.tokens_events (w : Draft) : Event.tokens w.events = w.tokens := by
  rw [Event.tokens, events, tokens, List.filterMap_map]
  congr 1
  funext s
  match s with
  | .event (.token k) => rfl
  | .event (.start k) => rfl
  | .event .finish => rfl
  | .event .placeholder => rfl
  | .hole i => rfl

theorem Draft.allTokens_bump (w : Draft) : w.bump.allTokens = w.allTokens := by
  rw [bump]
  split
  · rfl
  next hend =>
    obtain ⟨⟨prev, ahead, index⟩, slots, started, problems⟩ := w
    cases ahead with
    | nil => exact absurd rfl hend
    | cons m ms => simp [allTokens, tokens, Slot.token?, Cursor.kind, Cursor.advance]

/-- No token is lost or made up. -/
theorem Draft.allTokens_act {w w' : Draft} (h : w.act a = some w') :
    w'.allTokens = w.allTokens := by
  cases a with
  | start =>
      obtain rfl := Option.some.inj h
      simp [allTokens, tokens, Slot.token?]
  | bump =>
      obtain rfl := Option.some.inj h
      exact w.allTokens_bump
  | eat k =>
      obtain rfl := Option.some.inj h
      split
      · exact w.allTokens_bump
      · rfl
  | report fault =>
      obtain rfl := Option.some.inj h
      rfl
  | complete i k =>
      obtain ⟨-, rfl⟩ := act_complete_eq_some_iff.mp h
      -- a hole holds no token, filled or not
      have hfill : Slot.token? ∘ Slot.fill i k = Slot.token? := funext (Slot.token?_fill k)
      simp [allTokens, tokens, List.filterMap_map, hfill, Slot.token?]
  | abandon i =>
      obtain ⟨-, rfl⟩ := act_abandon_eq_some_iff.mp h
      have hfilter : (fun s => if s ≠ .hole i then Slot.token? s else none) = Slot.token? := by
        funext s
        split
        · rfl
        next hs =>
          obtain rfl := not_not.mp hs
          rfl
      simp only [allTokens, tokens, List.filterMap_filter, decide_eq_true_eq, hfilter]
  | forget i => cases h

theorem Draft.allTokens_run {w w' : Draft} (h : w.run as = some w') :
    w'.allTokens = w.allTokens := by
  induction as generalizing w with
  | nil =>
      obtain rfl := Option.some.inj h
      rfl
  | cons a as ih =>
      obtain ⟨w₁, hact, hrun⟩ := Option.bind_eq_some_iff.mp h
      rw [ih hrun, allTokens_act hact]

/-- A placeholder in an empty place counts as little as any other. -/
theorem proper_map_recorded (xs : List (Option Slot)) :
    Event.proper (xs.map Slot.recorded) =
      Event.proper (xs.reduceOption.map fun s => Slot.recorded (some s)) := by
  induction xs with
  | nil => rfl
  | cons x xs ih =>
      cases x with
      | none => exact ih
      | some s =>
          simp only [Event.proper] at ih ⊢
          rw [List.reduceOption_cons_of_some, List.map_cons, List.map_cons, List.filter_cons,
            List.filter_cons, ih]

/-- Without placeholders the events of a desk are those of the draft that it shows. -/
theorem Shows.proper_eq {d : Desk} {w : Draft} {xs : List (Option Slot)} (h : Shows d w xs) :
    Event.proper d.recorder.events.toList = Event.proper w.events := by
  rw [h.events, proper_map_recorded, h.slots, Draft.events]

end SqlCaret.Recorder
