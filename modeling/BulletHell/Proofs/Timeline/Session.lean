import BulletHell.Timeline

/-!
# Sessions of the timeline

A session is a timeline with the audio it plays to and the events it has answered so far. Calls
may come in any order and at any readings of the clock. Nothing is assumed of the readings: an
instance of `ClockTime` may compare them as it likes, so a late call, an early one and one that
is not a number are all covered.

Each call is told apart once, by what it did, in `advance_eq` and `roll_eq`. Facts about
sessions are then read off these few equations.

## Main definitions

* `Timeline.Call` — a call to the timeline
* `Timeline.Session`, `Session.call`, `Session.run` — the calls of a session

## Main results

* `Timeline.advance_eq`, `Timeline.roll_eq` — what a call does, case by case
* `Timeline.Session.call_cases` — the same for a call of a session, as far as the place in the
  spawn table goes
-/

namespace BulletHell

namespace Timeline

open ClockTime

variable {τ α : Type} [ClockTime τ] [AudioPlayer α τ]

/-- A call to the timeline. The calls other than `stop` tell the time. -/
inductive Call (τ : Type) where
  | start (now : τ)
  | advance (now : τ)
  | pause (now : τ)
  | resume (now : τ)
  | stop

/-- A timeline at work. -/
structure Session (τ α : Type) where
  timeline : Timeline τ
  audio : α
  /-- What the calls so far have answered, oldest first. -/
  events : List (TimelineEvent τ) := []

namespace Session

/-- Takes note of the answer to a call. -/
def record (s : Session τ α) (answer : Option (TimelineEvent τ) × Timeline τ × α) :
    Session τ α :=
  ⟨answer.2.1, answer.2.2, s.events ++ answer.1.toList⟩

/-- One call. A pause or a resumption that is refused changes nothing. -/
def call (stages : List (Stage τ)) (s : Session τ α) : Call τ → Session τ α
  | .start now => s.record (s.timeline.start now stages s.audio)
  | .advance now => s.record (s.timeline.advance now stages s.audio)
  | .pause now =>
    match s.timeline.pause? now s.audio with
    | none => s
    | some (timeline, audio) => { s with timeline := timeline, audio := audio }
  | .resume now =>
    match s.timeline.resume? now s.audio with
    | none => s
    | some (_, timeline, audio) => { s with timeline := timeline, audio := audio }
  | .stop =>
    let (timeline, audio) := s.timeline.stop s.audio
    { s with timeline := timeline, audio := audio }

/-- The calls of a session, one after the other. -/
def run (stages : List (Stage τ)) (s : Session τ α) (calls : List (Call τ)) : Session τ α :=
  calls.foldl (call stages) s

/-- A session before its first call. -/
def new (leadIn : τ) (audio : α) : Session τ α :=
  ⟨.idle leadIn, audio, []⟩

end Session

/-! ### What a call does -/

/-- Rolling a stage: there is none to roll, or the next one begins and its music is asked for. -/
theorem roll_eq (t : Timeline τ) (now : τ) (stages : List (Stage τ)) (audio : α) :
    t.roll now stages audio = (none, t, audio) ∨
      ∃ stage t', stages[(t.successor stages.length).1]? = some stage ∧
        t.roll now stages audio =
          (some (.stageStarted (t.successor stages.length).1 (t.successor stages.length).2
            (now + t.leadIn)), t', AudioPlayer.playScheduled audio stage.track (now + t.leadIn)) ∧
        t'.state = t.state ∧ t'.stage = some (t.successor stages.length).1 ∧
        t'.totalBeats = -1 ∧ t'.cursor = 0 := by
  cases hstage : stages[(t.successor stages.length).1]? with
  | none => exact .inl (by simp only [roll, hstage])
  | some stage =>
    refine .inr ⟨stage, (t.roll now stages audio).2.1, rfl, ?_⟩
    simp [roll, hstage]

/-- Advancing: nothing, the next stage, a beat inside the bar, or a bar line. -/
theorem advance_eq (t : Timeline τ) (now : τ) (stages : List (Stage τ)) (audio : α) :
    t.advance now stages audio = (none, t, audio) ∨
      t.advance now stages audio = t.roll now stages audio ∨
      ∃ i stage, t.stage = some i ∧ stages[i]? = some stage ∧
        (t.beatDue now = true ∧ t.advance now stages audio =
            (some (.beat (t.crossBeat stage).1), (t.crossBeat stage).2, audio) ∨
          due t.nextBar now = true ∧ t.advance now stages audio =
            (some (.beat (t.crossBar stage).1), (t.crossBar stage).2, audio)) := by
  rw [advance]
  split
  · next i _ hi =>
    split
    · exact .inr (.inl rfl)
    · split
      · exact .inl rfl
      · next stage hstage =>
        split
        · next hdue => exact .inr (.inr ⟨i, stage, hi, hstage, .inl ⟨hdue, rfl⟩⟩)
        · split
          · next hdue => exact .inr (.inr ⟨i, stage, hi, hstage, .inr ⟨hdue, rfl⟩⟩)
          · exact .inl rfl
  · exact .inl rfl

/-- Advancing neither pauses nor ends a run, and it leaves the music alone or starts a track. -/
theorem advance_state (t : Timeline τ) (now : τ) (stages : List (Stage τ)) (audio : α) :
    (t.advance now stages audio).2.1.state = t.state ∧
      ((t.advance now stages audio).2.2 = audio ∨ ∃ track start,
        (t.advance now stages audio).2.2 = AudioPlayer.playScheduled audio track start) := by
  rcases t.advance_eq now stages audio with h | h | ⟨i, stage, -, -, ⟨-, h⟩ | ⟨-, h⟩⟩
  · rw [h]
    exact ⟨rfl, .inl rfl⟩
  · rcases t.roll_eq now stages audio with hroll | ⟨stage, t', -, hroll, hstate, -⟩
    · rw [h, hroll]
      exact ⟨rfl, .inl rfl⟩
    · rw [h, hroll]
      exact ⟨hstate, .inr ⟨_, _, rfl⟩⟩
  · rw [h]
    exact ⟨rfl, .inl rfl⟩
  · rw [h]
    exact ⟨rfl, .inl rfl⟩

/-- A run that begins is active, and a track was started. -/
theorem start_state (t : Timeline τ) (now : τ) (stages : List (Stage τ)) (audio : α)
    {event : TimelineEvent τ} (h : (t.start now stages audio).1 = some event) :
    (t.start now stages audio).2.1.state = .active ∧ ∃ track start,
      (t.start now stages audio).2.2 = AudioPlayer.playScheduled audio track start := by
  rw [start] at h ⊢
  split at h
  · cases h
  · next hempty =>
    rw [if_neg hempty]
    rcases roll_eq { idle t.leadIn with state := .active } now stages audio with
      hroll | ⟨stage, t', -, hroll, hstate, -⟩
    · rw [hroll] at h
      cases h
    · rw [hroll]
      exact ⟨hstate, _, _, rfl⟩

/-- With stages, a run begins with the first one and its track. -/
theorem exists_start_eq (t : Timeline τ) (now : τ) {stages : List (Stage τ)} (audio : α)
    (h : stages ≠ []) :
    ∃ t' i loopCount start stage, t.start now stages audio =
        (some (.stageStarted i loopCount start), t',
          AudioPlayer.playScheduled audio stage.track start) ∧
      t'.state = .active ∧ t'.stage = some i ∧ stages[i]? = some stage := by
  cases stages with
  | nil => exact absurd rfl h
  | cons stage stages => exact ⟨_, 0, _, _, stage, rfl, rfl, rfl, rfl⟩

/-- The two ways to cross a beat, and what they have in common: the beat is counted, and the
entries from the cursor on that fall on it are handed out. -/
structure Counts (stage : Stage τ) (t : Timeline τ) (info : BeatInfo) (t' : Timeline τ) :
    Prop where
  total : info.total = t.totalBeats + 1
  first : info.firstSpawn = t.cursor
  stop : info.endSpawn = t.cursor + dueCount stage t.cursor (t.totalBeats + 1)
  stage_eq : t'.stage = t.stage
  totalBeats_eq : t'.totalBeats = info.total
  cursor_eq : t'.cursor = info.endSpawn

theorem counts_crossBeat (t : Timeline τ) (stage : Stage τ) :
    Counts stage t (t.crossBeat stage).1 (t.crossBeat stage).2 :=
  ⟨rfl, rfl, rfl, rfl, rfl, rfl⟩

theorem counts_crossBar (t : Timeline τ) (stage : Stage τ) :
    Counts stage t (t.crossBar stage).1 (t.crossBar stage).2 :=
  ⟨rfl, rfl, rfl, rfl, rfl, rfl⟩

/-- What became of the place in the spawn table, and what was answered meanwhile. -/
inductive Moves (stages : List (Stage τ)) (t : Timeline τ) :
    List (TimelineEvent τ) → Timeline τ → Prop where
  /-- The timeline stays where it is. -/
  | stays {t' : Timeline τ} (hstage : t'.stage = t.stage) (htotal : t'.totalBeats = t.totalBeats)
      (hcursor : t'.cursor = t.cursor) : Moves stages t [] t'
  /-- The timeline leaves its stage. -/
  | leaves {t' : Timeline τ} (hstage : t'.stage = none) : Moves stages t [] t'
  /-- A stage begins. -/
  | begins {t' : Timeline τ} {i loopCount : Nat} {start : τ} {stage : Stage τ}
      (hstage : stages[i]? = some stage) (hcurrent : t'.stage = some i)
      (htotal : t'.totalBeats = -1) (hcursor : t'.cursor = 0) :
      Moves stages t [.stageStarted i loopCount start] t'
  /-- A beat comes. -/
  | beats {t' : Timeline τ} {i : Nat} {stage : Stage τ} {info : BeatInfo}
      (hcurrent : t.stage = some i) (hstage : stages[i]? = some stage)
      (hcounts : Counts stage t info t') : Moves stages t [.beat info] t'

/-- What rolling a stage does, from a timeline in any state. -/
theorem moves_roll {t u : Timeline τ} (now : τ) (stages : List (Stage τ)) (audio : α)
    (hquiet : Moves stages t [] u) :
    Moves stages t (u.roll now stages audio).1.toList (u.roll now stages audio).2.1 := by
  rcases u.roll_eq now stages audio with h | ⟨stage, t', hstage, h, -, hcurrent, htotal, hcursor⟩
  · rw [h]
    exact hquiet
  · rw [h]
    exact .begins hstage hcurrent htotal hcursor

theorem moves_start (t : Timeline τ) (now : τ) (stages : List (Stage τ)) (audio : α) :
    Moves stages t (t.start now stages audio).1.toList (t.start now stages audio).2.1 := by
  rw [start]
  split
  · exact .leaves rfl
  · exact moves_roll now stages audio (.leaves rfl)

theorem moves_advance (t : Timeline τ) (now : τ) (stages : List (Stage τ)) (audio : α) :
    Moves stages t (t.advance now stages audio).1.toList (t.advance now stages audio).2.1 := by
  rcases t.advance_eq now stages audio with h | h | ⟨i, stage, hi, hstage, ⟨-, h⟩ | ⟨-, h⟩⟩
  · rw [h]
    exact .stays rfl rfl rfl
  · rw [h]
    exact moves_roll now stages audio (.stays rfl rfl rfl)
  · rw [h]
    exact .beats hi hstage (t.counts_crossBeat stage)
  · rw [h]
    exact .beats hi hstage (t.counts_crossBar stage)

namespace Session

/-- **One call**, of whatever kind. -/
theorem call_cases (stages : List (Stage τ)) (s : Session τ α) (c : Call τ) :
    ∃ answer, (s.call stages c).events = s.events ++ answer ∧
      Moves stages s.timeline answer (s.call stages c).timeline := by
  cases c with
  | start now => exact ⟨_, rfl, s.timeline.moves_start now stages s.audio⟩
  | advance now => exact ⟨_, rfl, s.timeline.moves_advance now stages s.audio⟩
  | pause now =>
    refine ⟨[], ?_⟩
    rw [List.append_nil, call]
    split
    · exact ⟨rfl, .stays rfl rfl rfl⟩
    · next timeline audio h =>
      rw [pause?] at h
      split at h
      · obtain ⟨rfl, rfl⟩ := Prod.mk.inj (Option.some.inj h)
        exact ⟨rfl, .stays rfl rfl rfl⟩
      · cases h
  | resume now =>
    refine ⟨[], ?_⟩
    rw [List.append_nil, call]
    split
    · exact ⟨rfl, .stays rfl rfl rfl⟩
    · next lost timeline audio h =>
      rw [resume?] at h
      split at h
      · obtain ⟨-, h⟩ := Prod.mk.inj (Option.some.inj h)
        obtain ⟨rfl, rfl⟩ := Prod.mk.inj h
        exact ⟨rfl, .stays rfl rfl rfl⟩
      · cases h
  | stop => exact ⟨[], (List.append_nil _).symm, .leaves rfl⟩

end Session

end Timeline

end BulletHell
