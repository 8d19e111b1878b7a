import BulletHell.Audio
import BulletHell.Stage.Basic

/-!
# The beat timeline

The timeline knows which beat it is. Deadlines are absolute clock readings, kept for the next
stage, the next bar and the next beat. Each call to `advance` crosses at most one of them, in
that order of precedence except that overdue beats of a bar come before the next bar; a late
caller catches up over the following calls.

## Main definitions

* `Timeline` — the scheduler, idle, active or paused.
* `Timeline.start`, `Timeline.stop`, `Timeline.advance` — the life of a run.
* `Timeline.pause`, `Timeline.resume` — a pause moves every deadline by the time lost.

## Implementation notes

The last beat of a bar has no deadline of its own after it: the next bar takes over. Bar and
beat deadlines are computed from the bar line, not from one another, so a late call does not
shift the beats after it.
-/

namespace BulletHell

/-- Beats in one bar. -/
def beatsPerBar : Int := 4

/-- Whether the timeline runs. -/
inductive TimelineState (τ : Type) where
  | idle
  | active
  | paused (since : τ)

/-- A beat that has come. -/
structure BeatInfo where
  bar : Int
  /-- The beat within the bar, zero on the downbeat. -/
  beat : Int
  /-- Beats since the stage began. -/
  total : Int
  /-- The first table entry that comes due on this beat. -/
  firstSpawn : Nat
  /-- The first table entry that does not come due yet. -/
  endSpawn : Nat

/-- Is this the first beat of a bar? -/
def BeatInfo.isDownbeat (b : BeatInfo) : Bool :=
  b.beat == 0

/-- What a call to the timeline made happen. -/
inductive TimelineEvent (τ : Type) where
  /-- A stage was rolled; its music and first beat start at `start`. -/
  | stageStarted (stage loopCount : Nat) (start : τ)
  | beat (info : BeatInfo)

/-- The scheduler. Bar and beat counters are -1 before the first beat of a stage. -/
structure Timeline (τ : Type) where
  state : TimelineState τ
  stage : Option Nat
  /-- How often the stage list was begun. -/
  loopCount : Nat
  bar : Int
  beat : Int
  totalBeats : Int
  beatLength : τ
  barLength : τ
  stageStart : τ
  nextStage : τ
  nextBar : τ
  nextBeat : τ
  /-- The first table entry not handed out yet. -/
  cursor : Nat
  /-- Seconds between rolling a stage and its music. -/
  leadIn : τ

namespace Timeline

open ClockTime

variable {τ α : Type} [ClockTime τ]

/-- The timeline before any run. -/
def idle (leadIn : τ) : Timeline τ where
  state := .idle
  stage := none
  loopCount := 1
  bar := -1
  beat := -1
  totalBeats := -1
  beatLength := ofInt 0
  barLength := ofInt 0
  stageStart := ofInt 0
  nextStage := ofInt 0
  nextBar := ofInt 0
  nextBeat := ofInt 0
  cursor := 0
  leadIn := leadIn

/-- The reading of the current bar line. -/
def barStart (t : Timeline τ) : τ :=
  t.nextBar - t.barLength

/-- The stage after the current one and the loop it belongs to. -/
def successor (t : Timeline τ) (stageCount : Nat) : Nat × Nat :=
  match t.stage with
  | none => (0, t.loopCount)
  | some i => if i + 1 < stageCount then (i + 1, t.loopCount) else (0, t.loopCount + 1)

/-- Rolls the next stage: schedules its music one lead-in from now and sets all deadlines from
there. -/
def roll [AudioPlayer α τ] (t : Timeline τ) (now : τ) (stages : List (Stage τ)) (audio : α) :
    Option (TimelineEvent τ) × Timeline τ × α :=
  let (next, loopCount) := t.successor stages.length
  match stages[next]? with
  | none => (none, t, audio)
  | some stage =>
    let start := now + t.leadIn
    let audio := AudioPlayer.playScheduled audio stage.track start
    let t :=
      { t with
        stage := some next
        loopCount := loopCount
        bar := -1
        beat := -1
        totalBeats := -1
        beatLength := stage.beatLength
        barLength := ofInt beatsPerBar * stage.beatLength
        stageStart := start
        nextStage := start + AudioPlayer.trackDuration audio stage.track
        nextBar := start
        nextBeat := start
        cursor := 0 }
    (some (.stageStarted next loopCount start), t, audio)

/-- How many entries from the cursor on fall on the given beat. -/
def dueCount (stage : Stage τ) (cursor : Nat) (total : Int) : Nat :=
  ((stage.spawns.drop cursor).takeWhile (·.beat == total)).length

/-- Counts one beat and hands out the entries that fall on it. -/
def countBeat (t : Timeline τ) (stage : Stage τ) : BeatInfo × Timeline τ :=
  let total := t.totalBeats + 1
  let beat := t.beat + 1
  let stop := t.cursor + dueCount stage t.cursor total
  (⟨t.bar, beat, total, t.cursor, stop⟩,
    { t with totalBeats := total, beat := beat, cursor := stop })

/-- Crosses a beat inside the current bar. -/
def crossBeat (t : Timeline τ) (stage : Stage τ) : BeatInfo × Timeline τ :=
  let (info, t) := t.countBeat stage
  (info, { t with nextBeat := t.barStart + ofInt (t.beat + 1) * t.beatLength })

/-- Crosses a bar line, which is also the downbeat of the new bar. -/
def crossBar (t : Timeline τ) (stage : Stage τ) : BeatInfo × Timeline τ :=
  let t := { t with bar := t.bar + 1, beat := -1, nextBar := t.nextBar + t.barLength }
  let (info, t) := t.countBeat stage
  (info, { t with nextBeat := t.barStart + t.beatLength })

/-- Is a beat of the current bar overdue? The last beat of a bar leaves the next one to the
bar line. -/
def beatDue (t : Timeline τ) (now : τ) : Bool :=
  0 ≤ t.bar && t.beat + 1 < beatsPerBar && due t.nextBeat now

/-- Crosses at most one deadline. -/
def advance [AudioPlayer α τ] (t : Timeline τ) (now : τ) (stages : List (Stage τ)) (audio : α) :
    Option (TimelineEvent τ) × Timeline τ × α :=
  match t.state, t.stage with
  | .active, some i =>
    if due t.nextStage now then t.roll now stages audio
    else
      match stages[i]? with
      | none => (none, t, audio)
      | some stage =>
        if t.beatDue now then
          let (info, t) := t.crossBeat stage
          (some (.beat info), t, audio)
        else if due t.nextBar now then
          let (info, t) := t.crossBar stage
          (some (.beat info), t, audio)
        else (none, t, audio)
  | _, _ => (none, t, audio)

/-- Begins a run with the first stage. Without stages the timeline stays idle. -/
def start [AudioPlayer α τ] (t : Timeline τ) (now : τ) (stages : List (Stage τ)) (audio : α) :
    Option (TimelineEvent τ) × Timeline τ × α :=
  let t := idle t.leadIn
  if stages.isEmpty then (none, t, audio)
  else { t with state := .active }.roll now stages audio

/-- Ends a run and its music. -/
def stop [AudioPlayer α τ] (t : Timeline τ) (audio : α) : Timeline τ × α :=
  (idle t.leadIn, AudioPlayer.stop audio)

/-- Pauses a running timeline; `none` if it is not running. -/
def pause? [AudioPlayer α τ] (t : Timeline τ) (now : τ) (audio : α) :
    Option (Timeline τ × α) :=
  match t.state with
  | .active => some ({ t with state := .paused now }, AudioPlayer.setPaused audio true)
  | _ => none

/-- Moves every deadline. -/
def shift (t : Timeline τ) (lost : τ) : Timeline τ :=
  { t with nextStage := t.nextStage + lost, nextBar := t.nextBar + lost,
           nextBeat := t.nextBeat + lost, stageStart := t.stageStart + lost }

/-- Resumes a paused timeline. The answer begins with the time lost; it is `none` if the
timeline is not paused. -/
def resume? [AudioPlayer α τ] (t : Timeline τ) (now : τ) (audio : α) :
    Option (τ × Timeline τ × α) :=
  match t.state with
  | .paused since =>
    let lost := elapsed since now
    some (lost, { t.shift lost with state := .active }, AudioPlayer.setPaused audio false)
  | _ => none

def isPaused (t : Timeline τ) : Bool :=
  match t.state with
  | .paused _ => true
  | _ => false

end Timeline

end BulletHell
