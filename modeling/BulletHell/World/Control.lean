import BulletHell.World.Spawning

/-!
# Starting, pausing and resuming

The operations that change the phase of a game together with its timeline and its music. A
restart forgets everything about the run before; only slots of the pools keep what they last
held, behind the scenes. A pause costs no time: on resuming, every deadline moves by as much
as the clock went on.
-/

namespace BulletHell

namespace World

variable {α : Type} [AudioPlayer α Float]

/-- Starts a run from the first stage. -/
def startGame (w : World) (now : Float) (audio : α) : World × α :=
  let s := w.catalog.settings
  let (event, timeline, audio) := w.timeline.start now w.catalog.stages audio
  let w :=
    { w.clearPools with
      player := w.player.reset s.player
      score := 0
      nextExtend := s.extendEvery
      extendPending := false
      tickCount := 0
      rng := seededRng w.catalog
      carryOver := true
      timeline := timeline }
  match event with
  | some event => ({ w with phase := .playing }.onTimelineEvent event now, audio)
  | none => ({ w with phase := .idle }, audio)

/-- Pauses a running game. The answer is whether it was running. -/
def pause (w : World) (now : Float) (audio : α) : Bool × World × α :=
  if w.phase = .playing then
    match w.timeline.pause? now audio with
    | none => (false, w, audio)
    | some (timeline, audio) =>
      (true, { w with timeline := timeline, phase := .paused }.announce .paused, audio)
  else (false, w, audio)

/-- Resumes a paused game. The answer is whether it was paused. -/
def resume (w : World) (now : Float) (audio : α) : Bool × World × α :=
  if w.phase = .paused then
    match w.timeline.resume? now audio with
    | none => (false, w, audio)
    | some (lost, timeline, audio) =>
      let enemies := w.enemies.update fun enemy => enemy.onUnpause lost
      (true,
        { w with timeline := timeline, enemies := enemies, phase := .playing }.announce
          (.resumed lost),
        audio)
  else (false, w, audio)

end World

end BulletHell
