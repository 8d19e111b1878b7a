import BulletHell.Proofs.Timeline.Grid

/-!
# The beat grid does not drift

What one call does on the beat grid, carried through a session. The counters of the timeline are
those of the last beat that it has told of, and the deadlines are the times of the next bar line
and of the next beat. So a beat that comes is always the next one and never early, and when nothing
comes the next one is not due yet. The grid itself stays where its stage was announced to begin,
but for the time lost in pauses.

## Main definitions

* `Timeline.lastBeat`, `Timeline.Numbered` — the beats among the events of a session
* `Timeline.InTime` — the invariant
* `Timeline.Anchored` — where the grid is after a call
* `Timeline.Session.KeepsTime` — what the grid says about a session

## Main results

* `Timeline.Session.inTime_call`, `Timeline.Session.inTime_run` — the invariant holds at all times
* `Timeline.Session.beats_stay_on_grid`
-/

namespace BulletHell

namespace Timeline

open ClockTime

variable {α : Type} {stage : Stage Rat} {t t' : Timeline Rat} {now : Rat}

/-! ### The beats of a session -/

/-- The number of the last beat of the current stage, -1 if none has come yet. -/
def lastBeat (events : List (TimelineEvent Rat)) : Int :=
  events.foldl
    (fun _ event =>
      match event with
      | .stageStarted .. => -1
      | .beat info => info.total)
    (-1)

/-- No beat is left out or comes twice, and each is told with its bar and its place in it. -/
def Numbered (events : List (TimelineEvent Rat)) : Prop :=
  ∀ before info after, events = before ++ .beat info :: after →
    info.total = lastBeat before + 1 ∧ info.bar = info.total / beatsPerBar ∧
      info.beat = info.total % beatsPerBar

variable {events : List (TimelineEvent Rat)}

theorem lastBeat_append_start (i loopCount : Nat) (start : Rat) :
    lastBeat (events ++ [.stageStarted i loopCount start]) = -1 := by
  rw [lastBeat, List.foldl_append]
  rfl

theorem lastBeat_append_beat (info : BeatInfo) :
    lastBeat (events ++ [.beat info]) = info.total := by
  rw [lastBeat, List.foldl_append]
  rfl

/-- One more event, which is properly numbered if it is a beat. -/
theorem Numbered.append (h : Numbered events) {event : TimelineEvent Rat}
    (hevent : ∀ info, event = .beat info →
      info.total = lastBeat events + 1 ∧ info.bar = info.total / beatsPerBar ∧
        info.beat = info.total % beatsPerBar) :
    Numbered (events ++ [event]) := by
  intro before info after hsplit
  rcases List.eq_nil_or_concat after with rfl | ⟨earlier, last, rfl⟩
  · obtain ⟨rfl, hlast⟩ := List.append_inj' hsplit rfl
    exact hevent info (List.cons.inj hlast).1
  · rw [List.concat_eq_append, ← List.cons_append, ← List.append_assoc] at hsplit
    obtain ⟨rfl, -⟩ := List.append_inj' hsplit rfl
    exact h before info earlier rfl

/-- A timeline that keeps to the grids of its stages, and what it has answered so far. -/
structure InTime (stages : List (Stage Rat)) (events : List (TimelineEvent Rat))
    (t : Timeline Rat) : Prop where
  numbered : Numbered events
  inStage : t.stage = none → t.state = .idle
  onGrid : ∀ i, t.stage = some i → ∃ stage, stages[i]? = some stage ∧ t.OnGrid stage ∧
    t.totalBeats = lastBeat events

namespace InTime

variable {stages : List (Stage Rat)}

/-- The timeline leaves its stage. -/
theorem leaves (h : InTime stages events t) (hstage : t'.stage = none)
    (hstate : t'.state = .idle) : InTime stages events t' where
  numbered := h.numbered
  inStage _ := hstate
  onGrid i hi := by
    rw [hstage] at hi
    cases hi

/-- The timeline stays in its stage, and on the grid. -/
theorem stays (h : InTime stages events t) (hstage : t'.stage = t.stage)
    (hstate : t.state = .idle → t'.state = .idle) (htotal : t'.totalBeats = t.totalBeats)
    (hgrid : ∀ stage, t.OnGrid stage → t'.OnGrid stage) : InTime stages events t' where
  numbered := h.numbered
  inStage hnone := hstate (h.inStage (hstage ▸ hnone))
  onGrid i hi := by
    obtain ⟨stage, hget, hon, hlast⟩ := h.onGrid i (hstage ▸ hi)
    exact ⟨stage, hget, hgrid stage hon, htotal.trans hlast⟩

theorem paces (h : InTime stages events t) {answer : Option (TimelineEvent Rat)}
    (hpaces : Paces stages t now answer t') : InTime stages (events ++ answer.toList) t' := by
  cases hpaces with
  | rests => simpa using h
  | @begins _ i _ _ stage hstage hcurrent hgrid htotal _ =>
    refine ⟨h.numbered.append fun info hinfo => (by cases hinfo), fun hnone => ?_, fun j hj => ?_⟩
    · rw [hcurrent] at hnone
      cases hnone
    · obtain rfl := Option.some.inj (hcurrent.symm.trans hj)
      exact ⟨stage, hstage, hgrid, htotal.trans (lastBeat_append_start _ _ _).symm⟩
  | @beats _ i stage info hcurrent hstage hcurrent' hgrid _ hnumber htold _ =>
    obtain ⟨-, -, -, hlast⟩ := h.onGrid i hcurrent
    obtain ⟨htotal, hbar, hbeat⟩ := htold
    obtain ⟨stage', hget, hon, -⟩ := h.onGrid i hcurrent
    have hbegun : 0 ≤ t'.totalBeats := by
      have hcounted := hon.counted
      omega
    refine ⟨h.numbered.append ?_, fun hnone => ?_, fun j hj => ?_⟩
    · rintro _ ⟨⟩
      refine ⟨by omega, ?_, ?_⟩
      · rw [← hbar, ← htotal]
        exact hgrid.bar
      · rw [← hbeat, ← htotal]
        exact hgrid.beat hbegun
    · rw [hcurrent'] at hnone
      cases hnone
    · obtain rfl := Option.some.inj (hcurrent'.symm.trans hj)
      exact ⟨stage, hstage, hgrid, htotal.trans (lastBeat_append_beat info).symm⟩

variable [AudioPlayer α Rat]

/-- Advancing, in a stage or in none. -/
theorem paces_advance (hpos : ∀ stage ∈ stages, 0 < stage.beatLength) (h : InTime stages events t)
    (now : Rat) (audio : α) :
    Paces stages t now (t.advance now stages audio).1 (t.advance now stages audio).2.1 := by
  cases hi : t.stage with
  | none =>
    have hidle := h.inStage hi
    rw [Timeline.advance, hidle]
    exact .rests fun hactive => by rw [hidle] at hactive; cases hactive
  | some i =>
    obtain ⟨stage, hstage, hgrid, -⟩ := h.onGrid i hi
    exact hgrid.paces_advance (hpos stage (List.mem_of_getElem? hstage)) hi hstage now audio

theorem start (h : InTime stages events t) (now : Rat) (audio : α) :
    InTime stages (events ++ (t.start now stages audio).1.toList)
      (t.start now stages audio).2.1 := by
  rcases t.start_cases now stages audio with hnone | hpaces
  · rw [hnone, Option.toList_none, List.append_nil]
    exact h.leaves rfl rfl
  · exact h.paces hpaces

end InTime

/-! ### Sessions -/

/-- Where the grid is after a call. It is that of a stage that has just been announced, or there is
none, or it is the one from before, later by the time lost. -/
def Anchored (lost : Rat) (t : Timeline Rat) (answer : List (TimelineEvent Rat))
    (t' : Timeline Rat) : Prop :=
  (∃ i loopCount, answer = [.stageStarted i loopCount t'.stageStart]) ∨ t'.stage = none ∨
    (∀ event ∈ answer, ∃ info, event = .beat info) ∧ t'.stage = t.stage ∧
      t'.stageStart = t.stageStart + lost

/-- A call that answers nothing and keeps the timeline in its stage. -/
theorem InTime.anchored {stages : List (Stage Rat)} {lost : Rat} (h : InTime stages events t')
    (hstage : t'.stage = t.stage) (hstart : t'.stageStart = t.stageStart + lost) :
    ∃ answer, events = events ++ answer ∧ InTime stages events t' ∧ Anchored lost t answer t' :=
  ⟨[], (List.append_nil _).symm, h,
    .inr (.inr ⟨fun event hevent => (by cases hevent), hstage, hstart⟩)⟩

theorem Paces.anchored {stages : List (Stage Rat)} {answer : Option (TimelineEvent Rat)}
    (h : Paces stages t now answer t') : Anchored 0 t answer.toList t' := by
  cases h with
  | rests => exact .inr (.inr ⟨fun event hevent => (by cases hevent), rfl, (add_zero _).symm⟩)
  | begins _ _ _ _ hstart => exact .inl ⟨_, _, by rw [hstart]; rfl⟩
  | beats hcurrent _ hcurrent' _ hstart =>
    refine .inr (.inr ⟨fun event hevent => ?_, hcurrent'.trans hcurrent.symm, ?_⟩)
    · exact ⟨_, List.mem_singleton.mp hevent⟩
    · rw [hstart, add_zero]

namespace Session

variable [AudioPlayer α Rat] {stages : List (Stage Rat)} {s : Session Rat α}

/-- The time that a call counts as lost: that of a pause which it ends. -/
def lost (s : Session Rat α) : Call Rat → Rat
  | .resume now =>
    match s.timeline.state with
    | .paused since => elapsed since now
    | _ => 0
  | _ => 0

/-- **One call**, of whatever kind. -/
theorem inTime_call (hpos : ∀ stage ∈ stages, 0 < stage.beatLength)
    (h : InTime stages s.events s.timeline) (c : Call Rat) :
    ∃ answer, (s.call stages c).events = s.events ++ answer ∧
      InTime stages (s.call stages c).events (s.call stages c).timeline ∧
      Anchored (s.lost c) s.timeline answer (s.call stages c).timeline := by
  cases c with
  | start now =>
    refine ⟨_, rfl, h.start now s.audio, ?_⟩
    rcases s.timeline.start_cases now stages s.audio with hnone | hpaces
    · exact .inr (.inl (congrArg (fun answer => answer.2.1.stage) hnone))
    · exact hpaces.anchored
  | advance now =>
    have hpaces := h.paces_advance hpos now s.audio
    exact ⟨_, rfl, h.paces hpaces, hpaces.anchored⟩
  | pause now =>
    cases hstate : s.timeline.state with
    | active =>
      simp only [call, pause?, lost, hstate]
      have hpaused : InTime stages s.events { s.timeline with state := .paused now } :=
        h.stays rfl (fun hidle => by rw [hstate] at hidle; cases hidle) rfl
          fun stage hgrid => hgrid.withState (.paused now)
      exact hpaused.anchored rfl (add_zero _).symm
    | _ =>
      simp only [call, pause?, lost, hstate]
      exact h.anchored rfl (add_zero _).symm
  | resume now =>
    cases hstate : s.timeline.state with
    | paused since =>
      simp only [call, resume?, lost, hstate]
      have hresumed : InTime stages s.events
          { s.timeline.shift (elapsed since now) with state := .active } :=
        h.stays rfl (fun hidle => by rw [hstate] at hidle; cases hidle) rfl
          fun stage hgrid => (hgrid.shift _).withState .active
      exact hresumed.anchored rfl rfl
    | _ =>
      simp only [call, resume?, lost, hstate]
      exact h.anchored rfl (add_zero _).symm
  | stop => exact ⟨[], (List.append_nil _).symm, h.leaves rfl rfl, .inr (.inl rfl)⟩

/-- **At any moment of a session.** -/
theorem inTime_run (hpos : ∀ stage ∈ stages, 0 < stage.beatLength)
    (h : InTime stages s.events s.timeline) (calls : List (Call Rat)) :
    InTime stages (s.run stages calls).events (s.run stages calls).timeline :=
  List.foldlRecOn (motive := fun s : Session Rat α => InTime stages s.events s.timeline) calls
    (call stages) h fun s hs c _ => by
      obtain ⟨-, -, hnext, -⟩ := inTime_call hpos hs c
      exact hnext

/-- What the grid says about a session at some moment. -/
structure KeepsTime (stages : List (Stage Rat)) (s : Session Rat α) : Prop where
  /-- So far no beat was left out or came twice, and none was in the wrong bar. -/
  numbered : Numbered s.events
  /-- A run that goes on or is paused is in a stage. -/
  inStage : s.timeline.stage = none → s.timeline.state = .idle
  /-- The counters are those of the last beat, and the deadlines are on the grid. -/
  onGrid : ∀ i, s.timeline.stage = some i → ∃ stage, stages[i]? = some stage ∧
    s.timeline.OnGrid stage ∧ s.timeline.totalBeats = lastBeat s.events
  /-- If a beat comes now, it is the next one, and its time has come. -/
  notEarly : ∀ now info, (s.timeline.advance now stages s.audio).1 = some (.beat info) →
    ∃ i stage, s.timeline.stage = some i ∧ stages[i]? = some stage ∧
      info.total = s.timeline.totalBeats + 1 ∧
      stage.beatTime s.timeline.stageStart info.total ≤ now
  /-- If nothing comes now in a run that goes on, the time of the next beat has not come. -/
  notLate : ∀ now, s.timeline.state = .active →
    (s.timeline.advance now stages s.audio).1 = none →
    ∃ i stage, s.timeline.stage = some i ∧ stages[i]? = some stage ∧
      now < stage.beatTime s.timeline.stageStart (s.timeline.totalBeats + 1)
  /-- The grid itself moves by the time lost in pauses and by nothing else. -/
  anchored : ∀ c, ∃ answer, (s.call stages c).events = s.events ++ answer ∧
    Anchored (s.lost c) s.timeline answer (s.call stages c).timeline

theorem keepsTime_of_inTime (hpos : ∀ stage ∈ stages, 0 < stage.beatLength)
    (h : InTime stages s.events s.timeline) : KeepsTime stages s where
  numbered := h.numbered
  inStage := h.inStage
  onGrid := h.onGrid
  notEarly now info hbeat := by
    have hpaces := h.paces_advance hpos now s.audio
    rw [hbeat] at hpaces
    cases hpaces with
    | beats hcurrent hstage _ _ _ hnumber _ hdue =>
      exact ⟨_, _, hcurrent, hstage, hnumber, hdue⟩
  notLate now hactive hnone := by
    have hpaces := h.paces_advance hpos now s.audio
    rw [hnone] at hpaces
    cases hi : s.timeline.stage with
    | none =>
      have hidle := h.inStage hi
      rw [hactive] at hidle
      cases hidle
    | some i =>
      obtain ⟨stage, hstage, -⟩ := h.onGrid i hi
      generalize (s.timeline.advance now stages s.audio).2.1 = t' at hpaces
      cases hpaces with
      | rests hnext => exact ⟨i, stage, rfl, hstage, hnext hactive i stage hi hstage⟩
  anchored c := by
    obtain ⟨answer, hevents, -, hanchored⟩ := inTime_call hpos h c
    exact ⟨answer, hevents, hanchored⟩

/-- **The beat grid does not drift.** Take exact readings of the clock, stages in which beats take
time, and any calls of a session at whatever readings. Then the beats of each stage come one after
the other, each in its bar; both deadlines are on the grid; no beat comes before its time, and none
is left once its time has come and the timeline answers nothing; and the grid moves only by the
time lost in pauses. -/
theorem beats_stay_on_grid (hpos : ∀ stage ∈ stages, 0 < stage.beatLength) (leadIn : Rat)
    (audio : α) (calls : List (Call Rat)) :
    KeepsTime stages ((new leadIn audio).run stages calls) := by
  have hnew : InTime stages (new leadIn audio).events (new leadIn audio).timeline :=
    { numbered := fun before info after hsplit => (by cases before <;> cases hsplit)
      inStage := fun _ => rfl
      onGrid := fun i hi => (by cases hi) }
  exact keepsTime_of_inTime hpos (inTime_run hpos hnew calls)

/-- A stage of two beats a second. -/
def metronome : Stage Rat where
  name := "stage"
  track := "track"
  bpm := 120
  background := ""
  scrollSpeed := 0
  spawns := []

/-- A run of that stage: its first beat, a pause of two seconds, and then calls that are late by
more than a bar. -/
def lateCalls : List (Call Rat) :=
  [.start 0, .advance 1, .pause 1, .resume 3, .advance 3, .advance 8, .advance 8, .advance 8,
    .advance 8]

/-- The late calls first complete the bar, one beat each. The next beat is still where it belongs,
five beats and the pause after the start of the music. -/
theorem beats_stay_on_grid_of_late :
    (∀ stage ∈ [metronome], 0 < stage.beatLength) ∧
      KeepsTime [metronome] ((new 1 (HeadlessAudio.new 60)).run [metronome] lateCalls) ∧
      ((new 1 (HeadlessAudio.new 60)).run [metronome] lateCalls).timeline.bar = 1 ∧
      ((new 1 (HeadlessAudio.new 60)).run [metronome] lateCalls).timeline.nextBeat = 5.5 := by
  have hpos : ∀ stage ∈ [metronome], 0 < stage.beatLength := by
    intro stage hstage
    obtain rfl := List.mem_singleton.mp hstage
    exact div_pos (by decide) (by decide)
  exact ⟨hpos, beats_stay_on_grid hpos 1 _ lateCalls, by decide +kernel, by decide +kernel⟩

end Session

end Timeline

end BulletHell
