import SqlCaret.Proofs.Parse.Lossless
import SqlCaret.Proofs.Recorder.Markers

/-!
# Recorder — traceless

A marker that is started and abandoned, with anything between and behind, leaves no trace.  The
markers started after it have a lower number without it (`Action.without`).  A draft and the same
draft `Without` the marker differ by one hole as long as the marker is there, and by nothing but
numbers once it is abandoned (`Without.act`, `Without.abandon`), so their events differ by
placeholders only.

Placeholders are nothing to the tree (`Tree.ofEvents?_proper`), nor to what a parse records behind
them (`Parse.record_congr`).  `Recorder.markers_in_any_order` puts this together for all lawful
actions on the tokens of a text.
-/

namespace SqlCaret

namespace Recorder

/-- The number that marker `j` has when the one started as the `i`-th is not started. -/
def renumber (i j : Nat) : Nat := if i < j then j - 1 else j

/-- No two other markers get one number. -/
theorem renumber_inj {i j j' : Nat} (hj : j ≠ i) (hj' : j' ≠ i) :
    renumber i j = renumber i j' ↔ j = j' := by
  rw [renumber, renumber]
  split <;> split <;> omega

/-- The action when the marker `i` is not started. -/
def Action.without (i : Nat) : Action → Action
  | complete j k => complete (renumber i j) k
  | abandon j => abandon (renumber i j)
  | forget j => forget (renumber i j)
  | a => a

namespace Slot

variable {i j : Nat}

/-- The slot when the marker `i` is not started. -/
def without (i : Nat) : Slot → Slot
  | event e => event e
  | hole j => hole (renumber i j)

/-- The hole of another marker has its new number. -/
theorem without_eq_hole_iff {s : Slot} (hs : s ≠ hole i) (hj : j ≠ i) :
    s.without i = hole (renumber i j) ↔ s = hole j := by
  cases s with
  | event e => simp [without]
  | hole j' =>
      have hj' : j' ≠ i := fun h => hs (congrArg hole h)
      rw [without, hole.injEq, hole.injEq, renumber_inj hj' hj]

/-- Filling a hole and leaving a marker out can be done in either order. -/
theorem fill_without {s : Slot} (hs : s ≠ hole i) (hj : j ≠ i) (k : Kind) :
    (s.without i).fill (renumber i j) k = (s.fill j k).without i := by
  simp only [fill, without_eq_hole_iff hs hj]
  split
  · rfl
  · rfl

theorem fill_ne_hole {s : Slot} (hj : j ≠ i) (k : Kind) : s.fill j k ≠ hole i ↔ s ≠ hole i := by
  rw [fill]
  split
  · subst s
    simpa using hj
  · rfl

/-- The numbers of markers do not show in what is recorded. -/
theorem recorded_without (s : Slot) : recorded (some (s.without i)) = recorded (some s) := by
  cases s <;> rfl

end Slot

/-! ### A draft without one of its markers -/

/-- What is left of some slots when the marker `i` is not started. -/
def slotsWithout (i : Nat) (ss : List Slot) : List Slot :=
  (ss.filter (· ≠ .hole i)).map (Slot.without i)

section
variable {i j : Nat} {ss : List Slot}

theorem slotsWithout_append (ss₁ ss₂ : List Slot) :
    slotsWithout i (ss₁ ++ ss₂) = slotsWithout i ss₁ ++ slotsWithout i ss₂ := by
  rw [slotsWithout, List.filter_append, List.map_append, slotsWithout, slotsWithout]

/-- Nothing is to be left out before the marker is started. -/
theorem slotsWithout_of_lt (h : ∀ j, .hole j ∈ ss → j < i) : slotsWithout i ss = ss := by
  have hne : ∀ s ∈ ss, s ≠ .hole i := by
    rintro s hs rfl
    exact Nat.lt_irrefl _ (h _ hs)
  rw [slotsWithout, List.filter_eq_self.mpr fun s hs => decide_eq_true (hne s hs)]
  refine (List.map_congr_left fun s hs => ?_).trans ss.map_id
  cases s with
  | event e => rfl
  | hole j => rw [Slot.without, renumber, if_neg (Nat.lt_asymm (h j hs)), id]

/-- The holes of other markers stay. -/
theorem hole_mem_slotsWithout (hj : j ≠ i) :
    .hole (renumber i j) ∈ slotsWithout i ss ↔ .hole j ∈ ss := by
  rw [slotsWithout, List.mem_map]
  constructor
  · rintro ⟨s, hs, heq⟩
    rw [List.mem_filter, decide_eq_true_eq] at hs
    rw [Slot.without_eq_hole_iff hs.2 hj] at heq
    exact heq ▸ hs.1
  · intro h
    refine ⟨.hole j, ?_, rfl⟩
    rw [List.mem_filter, decide_eq_true_eq]
    exact ⟨h, by simpa using hj⟩

/-- Other holes are filled alike. -/
theorem map_fill_slotsWithout (hj : j ≠ i) (k : Kind) :
    (slotsWithout i ss).map (Slot.fill (renumber i j) k) =
      slotsWithout i (ss.map (Slot.fill j k)) := by
  simp only [slotsWithout, List.filter_map, List.map_map, Function.comp_def,
    Slot.fill_ne_hole hj]
  refine List.map_congr_left fun s hs => ?_
  rw [List.mem_filter, decide_eq_true_eq] at hs
  exact Slot.fill_without hs.2 hj k

theorem filter_slotsWithout (hj : j ≠ i) :
    (slotsWithout i ss).filter (· ≠ .hole (renumber i j)) =
      slotsWithout i (ss.filter (· ≠ .hole j)) := by
  simp only [slotsWithout, List.filter_map, List.filter_filter]
  refine congrArg _ (List.filter_congr fun s hs => ?_)
  by_cases h : s = .hole i
  · simp [h]
  · simp [h, Slot.without_eq_hole_iff h hj]

/-- A hole is nothing to the events. -/
theorem proper_filter_ne_hole :
    Event.proper ((ss.filter (· ≠ .hole i)).map fun s => Slot.recorded (some s)) =
      Event.proper (ss.map fun s => Slot.recorded (some s)) := by
  induction ss with
  | nil => rfl
  | cons s ss ih =>
      by_cases hs : s = .hole i
      · rw [List.filter_cons_of_neg (by simpa using hs)]
        subst s
        exact ih
      · simp only [Event.proper] at ih ⊢
        rw [List.filter_cons_of_pos (by simpa using hs), List.map_cons, List.map_cons,
          List.filter_cons, List.filter_cons, ih]

/-- One hole less is one placeholder less, so the proper events are the same. -/
theorem proper_slotsWithout :
    Event.proper ((slotsWithout i ss).map fun s => Slot.recorded (some s)) =
      Event.proper (ss.map fun s => Slot.recorded (some s)) := by
  simp only [slotsWithout, List.map_map, Function.comp_def, Slot.recorded_without]
  exact proper_filter_ne_hole

end

/-- The draft `w'` is what `w` would be if its marker `i` had not been started. -/
structure Without (i : Nat) (w w' : Draft) : Prop where
  cursor : w'.cursor = w.cursor
  problems : w'.problems = w.problems
  started : w.started = w'.started + 1
  le : i ≤ w'.started
  slots : w'.slots = slotsWithout i w.slots

namespace Without

variable {i : Nat} {w w' w₁ : Draft} {a : Action} {as : List Action}

/-- The marker is started in one of two drafts. -/
theorem start (hholes : ∀ j, .hole j ∈ w.slots → j < w.started) :
    Without w.started
      { w with slots := w.slots ++ [.hole w.started], started := w.started + 1 } w := by
  refine ⟨rfl, rfl, rfl, Nat.le_refl _, ?_⟩
  rw [slotsWithout_append, slotsWithout_of_lt hholes]
  simp [slotsWithout]

/-- A token is recorded in both drafts. -/
theorem bump (h : Without i w w') : Without i w.bump w'.bump := by
  rw [Draft.bump, Draft.bump, h.cursor]
  split
  · exact h
  · refine ⟨rfl, h.problems, h.started, h.le, ?_⟩
    rw [h.slots, slotsWithout_append]
    rfl

/-- What does not use the marker has the same effect without it. -/
theorem act (h : Without i w w') (hmarker : a.marker? ≠ some i) (ha : w.act a = some w₁) :
    ∃ w₁', w'.act (a.without i) = some w₁' ∧ Without i w₁ w₁' := by
  cases a with
  | start =>
      obtain rfl := Option.some.inj ha
      refine ⟨_, rfl, h.cursor, h.problems, congrArg (· + 1) h.started,
        Nat.le_succ_of_le h.le, ?_⟩
      -- the marker that is left out has been started, so the new one is a number lower without it
      have hlt : i < w.started := by
        rw [h.started]
        exact Nat.lt_succ_of_le h.le
      have hnumber : renumber i w.started = w'.started := by
        rw [renumber, if_pos hlt, h.started, Nat.add_sub_cancel]
      rw [h.slots, slotsWithout_append]
      simp [slotsWithout, Slot.without, Nat.ne_of_gt hlt, hnumber]
  | bump =>
      obtain rfl := Option.some.inj ha
      exact ⟨_, rfl, h.bump⟩
  | eat k =>
      obtain rfl := Option.some.inj ha
      refine ⟨_, rfl, ?_⟩
      rw [h.cursor]
      split
      · exact h.bump
      · exact h
  | report fault =>
      obtain rfl := Option.some.inj ha
      refine ⟨_, rfl, h.cursor, ?_, h.started, h.le, h.slots⟩
      simp only [h.problems, h.cursor]
  | complete j k =>
      have hj : j ≠ i := fun hj => hmarker (congrArg some hj)
      obtain ⟨hmem, rfl⟩ := Draft.act_complete_eq_some_iff.mp ha
      refine ⟨_, if_pos ?_, h.cursor, h.problems, h.started, h.le, ?_⟩
      · rwa [h.slots, hole_mem_slotsWithout hj]
      · simp only [h.slots, map_fill_slotsWithout hj, slotsWithout_append]
        rfl
  | abandon j =>
      have hj : j ≠ i := fun hj => hmarker (congrArg some hj)
      obtain ⟨hmem, rfl⟩ := Draft.act_abandon_eq_some_iff.mp ha
      refine ⟨_, if_pos ?_, h.cursor, h.problems, h.started, h.le, ?_⟩
      · rwa [h.slots, hole_mem_slotsWithout hj]
      · simp only [h.slots, filter_slotsWithout hj]
  | forget j => cases ha

/-- Once the marker is abandoned there is nothing more to leave out. -/
theorem abandon (h : Without i w w') (ha : w.act (.abandon i) = some w₁) : Without i w₁ w' := by
  obtain ⟨-, rfl⟩ := Draft.act_abandon_eq_some_iff.mp ha
  refine ⟨h.cursor, h.problems, h.started, h.le, ?_⟩
  rw [h.slots, slotsWithout, slotsWithout, List.filter_filter]
  simp only [Bool.and_self]

/-- Actions that leave the marker alone are done in both drafts. -/
theorem run (h : Without i w w') (hmarkers : i ∉ as.filterMap Action.marker?)
    (ha : w.run as = some w₁) :
    ∃ w₁', w'.run (as.map (Action.without i)) = some w₁' ∧ Without i w₁ w₁' := by
  induction as generalizing w w' with
  | nil =>
      obtain rfl := Option.some.inj ha
      exact ⟨w', rfl, h⟩
  | cons a as ih =>
      obtain ⟨w₂, hact, hrun⟩ := Option.bind_eq_some_iff.mp ha
      simp only [List.mem_filterMap, List.mem_cons, exists_eq_or_imp, not_or, not_exists,
        not_and] at hmarkers
      obtain ⟨w₂', hact', h₂⟩ := h.act hmarkers.1 hact
      obtain ⟨w₁', hrun', h₁⟩ := ih h₂ (by simpa using hmarkers.2) hrun
      exact ⟨w₁', by rw [List.map_cons, Draft.run, hact', Option.bind_some, hrun'], h₁⟩

/-- **The two drafts have the same proper events.** -/
theorem proper_eq (h : Without i w w') : Event.proper w'.events = Event.proper w.events := by
  rw [Draft.events, Draft.events, h.slots, proper_slotsWithout]

end Without

end Recorder

/-! ### What a parse makes of it -/

/-- **What was recorded before a parse counts without its placeholders.** -/
theorem Parse.record_congr (ts : List Token) {r r' : Recorder} (hcursor : r'.cursor = r.cursor)
    (hproblems : r'.problems = r.problems)
    (hevents : Event.proper r'.events.toList = Event.proper r.events.toList) :
    record ts r' = record ts r := by
  have htell : ∀ {r₁ : Recorder}, r₁.cursor = r.cursor →
      r₁.tell (Outline.script r.cursor).value = some
        { r₁ with
          cursor := (Outline.script r.cursor).rest
          events := r₁.events ++
            ((Outline.script r.cursor).value.events Mark.kind).toArray } := by
    intro r₁ h₁
    exact Recorder.tell_eq _ _ _ (h₁ ▸ Outline.consumes_script r.cursor)
  rw [record, record, hcursor]
  simp only [htell hcursor, htell rfl, Option.bind_some, hproblems, Array.toList_append]
  rw [← Tree.ofEvents?_proper, Event.proper_append, hevents, ← Event.proper_append,
    Tree.ofEvents?_proper]

namespace Recorder

/-- A desk with nothing done, in front of the tokens of a text. -/
def Desk.ofText (separator text : List Char) : Desk :=
  { recorder := Parse.recorder separator (tokenize text) }

/-- A desk with nothing done shows a draft with nothing in it. -/
theorem Shows.ofText (separator text : List Char) :
    Shows (Desk.ofText separator text) { cursor := Parse.cursor separator text } [] := by
  rw [Desk.ofText, Parse.recorder_tokenize]
  exact ⟨rfl, rfl, rfl, rfl, rfl, fun i m => by simp⟩

section
variable {separator text : List Char} {as bs cs : List Action} {w w' : Draft}

/-- The tokens of a draft are the first of the text. -/
theorem Draft.tokens_prefix
    (h : ({ cursor := Parse.cursor separator text } : Draft).run as = some w) :
    w.tokens <+: significantKinds (lexemes text) := by
  have hall : w.allTokens = significantKinds (lexemes text) := by
    rw [Draft.allTokens_run h]
    exact Mark.map_kind_read separator true true (lexemes text)
  rw [← hall]
  exact List.prefix_append ..

/-- Markers that are started and abandoned, and nothing else. -/
theorem Draft.run_idle (has : ∀ a ∈ as, a = .start ∨ ∃ i, a = .abandon i)
    (h : w.run as = some w') :
    w'.cursor = w.cursor ∧ w'.problems = w.problems ∧
      Event.proper w'.events = Event.proper w.events := by
  induction as generalizing w with
  | nil =>
      obtain rfl := Option.some.inj h
      exact ⟨rfl, rfl, rfl⟩
  | cons a as ih =>
      obtain ⟨w₁, hact, hrun⟩ := Option.bind_eq_some_iff.mp h
      obtain ⟨hcursor, hproblems, hevents⟩ :=
        ih (fun a ha => has a (List.mem_cons_of_mem _ ha)) hrun
      rcases has a List.mem_cons_self with rfl | ⟨i, rfl⟩
      · obtain rfl := Option.some.inj hact
        refine ⟨hcursor, hproblems, hevents.trans ?_⟩
        rw [Draft.events, List.map_append, Event.proper_append]
        exact List.append_nil _
      · obtain ⟨-, rfl⟩ := Draft.act_abandon_eq_some_iff.mp hact
        exact ⟨hcursor, hproblems, hevents.trans proper_filter_ne_hole⟩

/-- **A marker that is abandoned** may as well not be started. -/
theorem Draft.exists_run_without (c : Cursor)
    (h : Lawful (as ++ .start :: (bs ++ .abandon (as.count .start) :: cs))) :
    ∃ w w' : Draft,
      ({ cursor := c } : Draft).run
          (as ++ .start :: (bs ++ .abandon (as.count .start) :: cs)) = some w ∧
        ({ cursor := c } : Draft).run
          (as ++ (bs ++ cs).map (Action.without (as.count .start))) = some w' ∧
        Without (as.count .start) w w' := by
  -- the marker is not used in between, and is used up behind
  have habandon : Action.Allowed (as ++ .start :: bs) (.abandon (as.count .start)) := by
    rw [← List.cons_append, ← List.append_assoc] at h
    exact h.allowed
  have hbs : as.count .start ∉ bs.filterMap Action.marker? := by
    intro hmem
    refine habandon.2 ?_
    rw [List.filterMap_append]
    exact List.mem_append_right _ hmem
  have hcs : as.count .start ∉ cs.filterMap Action.marker? := by
    rw [← List.cons_append, ← List.append_assoc, List.append_cons] at h
    refine h.not_used ?_
    rw [List.filterMap_append]
    exact List.mem_append_right _ List.mem_cons_self
  obtain ⟨w, hw, -⟩ := h.exists_run c
  obtain ⟨w₀, hw₀, h₀⟩ := h.of_append.exists_run c
  have hstarted : Without (as.count .start)
      { w₀ with slots := w₀.slots ++ [.hole w₀.started], started := w₀.started + 1 } w₀ := by
    rw [← h₀.started]
    refine Without.start fun j hj => ?_
    rw [h₀.started]
    exact ((h₀.hole_iff j).mp hj).1
  have hrun := hw
  rw [Draft.run_append, hw₀, Option.bind_some, Draft.run, Draft.act, Option.bind_some,
    Draft.run_append] at hrun
  obtain ⟨w₁, hrun₁, hrun⟩ := Option.bind_eq_some_iff.mp hrun
  obtain ⟨w₂, hact, hrun₂⟩ := Option.bind_eq_some_iff.mp hrun
  obtain ⟨w₁', hrun₁', h₁⟩ := hstarted.run hbs hrun₁
  obtain ⟨w', hrun₂', h₂⟩ := (h₁.abandon hact).run hcs hrun₂
  refine ⟨w, w', hw, ?_, h₂⟩
  rw [List.map_append, Draft.run_append, hw₀, Option.bind_some, Draft.run_append, hrun₁',
    Option.bind_some, hrun₂']

end

/-- **Markers in any order.**  Any sequence of actions on the tokens of a text that uses only
markers that were started, and each of them once, comes to pass, and the place of every marker
that is there holds a placeholder.

A marker that is abandoned may as well not be started: the problems are the same, the events are
the same but for placeholders, and so is the tree of balanced events and the record of a parse that
follows.  Markers that are started and abandoned before a parse, and nothing else, are nothing to
it. -/
theorem markers_in_any_order (separator text : List Char) :
    (∀ as, Lawful as → ∃ d, (Desk.ofText separator text).run as = some d ∧
      (∀ i, (∃ m, d.marker? i = some m) ↔ Live as i) ∧
      ∀ i m, d.marker? i = some m → d.recorder.events[m]? = some .placeholder) ∧
    (∀ as bs cs, Lawful (as ++ .start :: (bs ++ .abandon (as.count .start) :: cs)) →
      ∃ d d', (Desk.ofText separator text).run
          (as ++ .start :: (bs ++ .abandon (as.count .start) :: cs)) = some d ∧
        (Desk.ofText separator text).run
          (as ++ (bs ++ cs).map (Action.without (as.count .start))) = some d' ∧
        d'.recorder.problems = d.recorder.problems ∧
        Event.proper d'.recorder.events.toList = Event.proper d.recorder.events.toList ∧
        (Event.oneRoot (Event.proper d.recorder.events.toList) = true →
          ∃ t, Tree.ofEvents? (lexemes text) d.recorder.events.toList = some t ∧
            Tree.ofEvents? (lexemes text) d'.recorder.events.toList = some t) ∧
        Parse.record (tokenize text) d'.recorder = Parse.record (tokenize text) d.recorder) ∧
    ∀ as, Lawful as → (∀ a ∈ as, a = .start ∨ ∃ i, a = .abandon i) →
      ∃ d, (Desk.ofText separator text).run as = some d ∧
        Parse.record (tokenize text) d.recorder =
          Parse.record (tokenize text) (Parse.recorder separator (tokenize text)) := by
  have hfresh := Shows.ofText separator text
  refine ⟨fun as h => ?_, fun as bs cs h => ?_, fun as h has => ?_⟩
  · obtain ⟨w, hw, hholds⟩ := h.exists_run (Parse.cursor separator text)
    obtain ⟨d, xs, hd, hshows⟩ := hfresh.run hw
    refine ⟨d, hd, fun i => ?_, fun i m => hshows.placeholder⟩
    rw [← hshows.exists_marker, hholds.hole_iff]
  -- both runs are shown by drafts, and what is compared is told by the drafts
  · obtain ⟨w, w', hw, hw', hwithout⟩ :=
      Draft.exists_run_without (Parse.cursor separator text) h
    obtain ⟨d, xs, hd, hshows⟩ := hfresh.run hw
    obtain ⟨d', xs', hd', hshows'⟩ := hfresh.run hw'
    have hcursor : d'.recorder.cursor = d.recorder.cursor := by
      rw [hshows.cursor, hshows'.cursor, hwithout.cursor]
    have hproblems : d'.recorder.problems = d.recorder.problems := by
      rw [hshows.problems, hshows'.problems, hwithout.problems]
    have hproper : Event.proper d'.recorder.events.toList =
        Event.proper d.recorder.events.toList := by
      rw [hshows.proper_eq, hshows'.proper_eq, hwithout.proper_eq]
    refine ⟨d, d', hd, hd', hproblems, hproper, fun hroot => ?_,
      Parse.record_congr _ hcursor hproblems hproper⟩
    -- no more tokens are recorded than the text has, so a tree can be built
    have htokens : Event.tokens d.recorder.events.toList = w.tokens := by
      rw [← Event.tokens_proper, hshows.proper_eq, Event.tokens_proper, Draft.tokens_events]
    obtain ⟨t, ht⟩ := Tree.exists_ofEvents? hroot (htokens ▸ (Draft.tokens_prefix hw).length_le)
    refine ⟨t, ht, ?_⟩
    rw [← Tree.ofEvents?_proper, hproper, Tree.ofEvents?_proper, ht]
  · obtain ⟨w, hw, -⟩ := h.exists_run (Parse.cursor separator text)
    obtain ⟨d, xs, hd, hshows⟩ := hfresh.run hw
    obtain ⟨hcursor, hproblems, hevents⟩ := Draft.run_idle has hw
    refine ⟨d, hd, Parse.record_congr _ ?_ ?_ ?_⟩
    · rw [hshows.cursor, hcursor, Parse.recorder_tokenize]
    · rw [hshows.problems, hproblems, Parse.recorder_tokenize]
    · rw [hshows.proper_eq, hevents, Parse.recorder_tokenize]
      rfl

/-- Three markers on one token.  The node of the first ends while the others are there, and the
second, the older of these, is abandoned before the third, which still has its placeholder then.
Two markers with nothing between them are abandoned in the order in which they were started. -/
theorem markers_in_any_order_crossing :
    let as : List Action := [.start]
    let bs : List Action := [.bump, .start, .complete 0 .script]
    let cs : List Action := [.report .unterminatedString, .abandon 2]
    let idle : List Action := [.start, .start, .abandon 0, .abandon 1]
    (Lawful (as ++ .start :: (bs ++ [.abandon 1])) ∧
      ∃ d m, (Desk.ofText ['G', 'O'] ['a']).run (as ++ .start :: (bs ++ [.abandon 1])) = some d ∧
        d.marker? 2 = some m ∧ d.recorder.events[m]? = some .placeholder) ∧
    (Lawful (as ++ .start :: (bs ++ .abandon (as.count .start) :: cs)) ∧
      as ++ (bs ++ cs).map (Action.without (as.count .start)) =
        [.start, .bump, .start, .complete 0 .script, .report .unterminatedString, .abandon 1] ∧
      ∃ d, (Desk.ofText ['G', 'O'] ['a']).run
          (as ++ (bs ++ cs).map (Action.without (as.count .start))) = some d ∧
        Event.proper d.recorder.events.toList = [.start .script, .token .word, .finish] ∧
        ∃ t, Tree.ofEvents? (lexemes ['a']) d.recorder.events.toList = some t) ∧
    Lawful idle ∧ (∀ a ∈ idle, a = .start ∨ ∃ i, a = .abandon i) ∧
      ∃ d, (Desk.ofText ['G', 'O'] ['a']).run idle = some d ∧
        Parse.record (tokenize ['a']) d.recorder =
          Parse.record (tokenize ['a']) (Parse.recorder ['G', 'O'] (tokenize ['a'])) := by
  intro as bs cs idle
  obtain ⟨hplaces, habandoned, hidle⟩ := markers_in_any_order ['G', 'O'] ['a']
  refine ⟨?_, ?_, ?_⟩
  · have hlawful : Lawful (as ++ .start :: (bs ++ [.abandon 1])) := by decide
    obtain ⟨d, hd, hlive, hplace⟩ := hplaces _ hlawful
    obtain ⟨m, hm⟩ := (hlive 2).mpr (by decide)
    exact ⟨hlawful, d, m, hd, hm, hplace 2 m hm⟩
  · have hlawful : Lawful (as ++ .start :: (bs ++ .abandon (as.count .start) :: cs)) := by decide
    obtain ⟨d, d', -, hd', -, hproper, htree, -⟩ := habandoned as bs cs hlawful
    have hevents : ((Desk.ofText ['G', 'O'] ['a']).run
        (as ++ (bs ++ cs).map (Action.without (as.count .start)))).map
          (fun d => Event.proper d.recorder.events.toList) =
        some [.start .script, .token .word, .finish] := by decide
    rw [hd', Option.map_some, Option.some.injEq] at hevents
    obtain ⟨t, -, ht⟩ := htree (by rw [← hproper, hevents]; rfl)
    exact ⟨hlawful, by decide, d', hd', hevents, t, ht⟩
  · have hlawful : Lawful idle := by decide
    have hshape : ∀ a ∈ idle, a = .start ∨ ∃ i, a = .abandon i := by simp [idle]
    exact ⟨hlawful, hshape, hidle idle hlawful hshape⟩

end Recorder

end SqlCaret
