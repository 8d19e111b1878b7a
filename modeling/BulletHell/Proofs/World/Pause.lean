import BulletHell.Proofs.Pool.Sweep
import BulletHell.Proofs.World.Session
import BulletHell.Proofs.World.StagedTick

/-!
# A pause is transparent

A game that is paused, left alone for any number of ticks and resumed goes on as if nothing had
been, but for the clock: it is where one ordinary tick would have taken it had every deadline
been later by the time lost. The audience is told of the pause; nothing else remembers it.

## Why this needs proof

Deadlines are kept in two places, four in the timeline and one in every enemy, and the music has
a flag of its own. Effects age by the phase in which a tick begins: the tick that pauses ages
them, the tick that resumes is played without. So the two ticks together age them once and play
once, which is what one ordinary tick does. The way back passes every enemy through its queue.

Nothing is assumed of the readings of the clock. The time lost is whatever `ClockTime.elapsed`
makes of them, and none at all if the clock went backwards.

## Main definitions

* `World.shift` — every deadline later by the same time

## Main results

* `World.tick_pause`, `World.tick_paused`, `World.tick_resume` — the three kinds of tick
* `World.pause_transparent`
-/

namespace BulletHell

/-- The input with the pause button as given and without a restart. -/
def TickInput.pressing (input : TickInput) (pause : Bool) : TickInput :=
  { input with pause := pause, restart := false }

namespace World

/-- The world with its deadlines moved: the four of the timeline, and that of every active
enemy. -/
def shift (w : World) (lost : Float) : World :=
  { w with
    timeline := { w.timeline with
      nextStage := w.timeline.nextStage + lost
      nextBar := w.timeline.nextBar + lost
      nextBeat := w.timeline.nextBeat + lost
      stageStart := w.timeline.stageStart + lost }
    enemies := {
      active := w.enemies.active.map fun slot =>
        { slot with item :=
          { slot.item with destinationTime := slot.item.destinationTime + lost } }
      free := w.enemies.free } }

/-- The world during a pause. -/
def held (w : World) (since : Float) : World :=
  { w with
    timeline := { w.timeline with state := .paused since }
    phase := .paused
    events := w.events.push .paused }

variable {w : World} {audio : HeadlessAudio Float}

/-! ### The three kinds of tick -/

/-- Play takes no notice of the pause button. -/
theorem goOn_pressing {α : Type} [AudioPlayer α Float] (w : World) (input : TickInput)
    (pause : Bool) (now : Float) (audio : α) (dt : Float32) :
    w.goOn (input.pressing pause) now audio dt = w.goOn input now audio dt := by
  have hplayer : ∀ w : World, w.tickPlayer (input.pressing pause) dt = w.tickPlayer input dt :=
    fun _ => rfl
  simp only [goOn, simulate_eq, act, hplayer]

theorem goOn_of_not_playing {α : Type} [AudioPlayer α Float] {w : World}
    (h : w.phase ≠ .playing) (input : TickInput) (now : Float) (audio : α) (dt : Float32) :
    w.goOn input now audio dt = (w, audio) :=
  if_pos h

theorem togglePause_playing (h : InStep w audio) (hplaying : w.phase = .playing) (now : Float) :
    w.togglePause now audio = (w.held now, { audio with paused := true }) := by
  obtain ⟨hstate, hmusic⟩ := h.playing hplaying
  rw [HeadlessAudio.isPlaying, Bool.and_eq_true] at hmusic
  have haudio : AudioPlayer.setPaused audio true = { audio with paused := true } :=
    if_pos hmusic.1
  rw [togglePause, hplaying]
  simp only [pause_eq hplaying hstate, haudio]
  rfl

/-- The tick that pauses. -/
theorem tick_pause (h : InStep w audio) (hplaying : w.phase = .playing) (input : TickInput)
    (now : Float) (dt : Float32) :
    w.tick (input.pressing true) now audio dt =
      ((w.tickEffects dt).held now, { audio with paused := true }) := by
  have haged : InStep (w.tickEffects dt) audio := h.of_keeps (w.keeps_tickEffects dt)
  have hheld : ((w.tickEffects dt).held now).phase ≠ .playing := fun h => by cases h
  rw [tick_eq, age, if_pos hplaying, togglePause_playing haged hplaying]
  exact goOn_of_not_playing hheld (input.pressing true) now _ dt

/-- A tick of a paused game, without pause or restart. -/
theorem tick_paused {α : Type} [AudioPlayer α Float] {w : World} (hpaused : w.phase = .paused)
    (input : TickInput) (now : Float) (audio : α) (dt : Float32) :
    w.tick (input.pressing false) now audio dt = (w, audio) := by
  have hplaying : w.phase ≠ .playing := by
    rw [hpaused]
    exact fun h => by cases h
  rw [tick_eq, age, if_neg hplaying]
  exact goOn_of_not_playing hplaying (input.pressing false) now audio dt

theorem play_paused {α : Type} [AudioPlayer α Float] {w : World} (hpaused : w.phase = .paused)
    (audio : α) (ticks : List (TickInput × Float × Float32)) :
    play w audio (ticks.map fun t => .tick (t.1.pressing false) t.2.1 t.2.2) = (w, audio) := by
  induction ticks with
  | nil => rfl
  | cons t ticks ih =>
    rw [List.map_cons, play, List.foldl_cons, call, tick_paused hpaused]
    exact ih

/-- The way back from a pause: the deadlines move, and the music plays as before. -/
theorem togglePause_held (h : InStep w audio) (hplaying : w.phase = .playing)
    (since now : Float) :
    (w.held since).togglePause now { audio with paused := true } =
      ({ w.shift (ClockTime.elapsed since now) with
          events := w.events ++ #[.paused, .resumed (ClockTime.elapsed since now)] }, audio) := by
  obtain ⟨hstate, hmusic⟩ := h.playing hplaying
  rw [HeadlessAudio.isPlaying, Bool.and_eq_true, Bool.not_eq_true'] at hmusic
  have haudio : AudioPlayer.setPaused { audio with paused := true } false = audio := by
    rw [← hmusic.2]
    exact if_pos hmusic.1
  have henemies := w.enemies.update_eq fun enemy =>
    enemy.onUnpause (ClockTime.elapsed since now)
  have hevents : (w.events.push .paused).push (.resumed (ClockTime.elapsed since now)) =
      w.events ++ #[.paused, .resumed (ClockTime.elapsed since now)] := by
    rw [Array.push_eq_append, Array.push_eq_append, Array.append_assoc]
    rfl
  simp only [togglePause, held, resume, if_true, Timeline.resume?, haudio, henemies, announce,
    hevents]
  rw [← hplaying, ← hstate]
  rfl

/-- The tick that resumes: deadlines move, and the rest of the tick goes on. -/
theorem tick_resume (h : InStep w audio) (hplaying : w.phase = .playing) (input : TickInput)
    (since now : Float) (dt : Float32) :
    (w.held since).tick (input.pressing true) now { audio with paused := true } dt =
      { w.shift (ClockTime.elapsed since now) with
        events := w.events ++
          #[GameEvent.paused, .resumed (ClockTime.elapsed since now)] }.goOn input now audio dt := by
  have hage : (w.held since).age dt = w.held since := if_neg fun h => by cases h
  rw [tick_eq, hage, togglePause_held h hplaying, goOn_pressing, goOn_pressing]
  rfl

/-- An ordinary tick. -/
theorem tick_ordinary {α : Type} [AudioPlayer α Float] {w : World} (hplaying : w.phase = .playing)
    (input : TickInput) (now : Float) (audio : α) (dt : Float32) :
    w.tick (input.pressing false) now audio dt = (w.tickEffects dt).goOn input now audio dt := by
  rw [tick_eq, age, if_pos hplaying, goOn_pressing]
  rfl

/-! ### The whole pause -/

/-- Ticks that neither pause nor restart. -/
def idleTicks (ticks : List (TickInput × Float × Float32)) : List Call :=
  ticks.map fun t => .tick (t.1.pressing false) t.2.1 t.2.2

/-- The one tick that a pause amounts to: an ordinary one, with every deadline later by the time
lost. -/
def tickAfterLoss (w : World) (input : TickInput) (since now : Float)
    (audio : HeadlessAudio Float) (dt : Float32) : World × HeadlessAudio Float :=
  (w.shift (ClockTime.elapsed since now)).tick (input.pressing false) now audio dt

/-- **Pausing is transparent.** Take any session of a game up to a moment at which it is being
played, and pause there. However many ticks follow, they change nothing; and the tick that resumes
leaves the world and the audio that one ordinary tick leaves when all deadlines are later by the
time lost. Only the event queue tells the difference: it has the pause and the resumption in front
of what that tick announced. -/
theorem pause_transparent {catalog : Catalog} {audio₀ : HeadlessAudio Float} {calls : List Call}
    (hreach : play (new catalog) audio₀ calls = (w, audio)) (hplaying : w.phase = .playing)
    (first input : TickInput) (between : List (TickInput × Float × Float32)) (since now : Float)
    (dt : Float32) :
    play w audio (.tick (first.pressing true) since dt :: idleTicks between) =
        play w audio [.tick (first.pressing true) since dt] ∧
      ∃ new,
        (w.tickAfterLoss input since now audio dt).1.events = w.events ++ new ∧
        play w audio (.tick (first.pressing true) since dt ::
            (idleTicks between ++ [.tick (input.pressing true) now dt])) =
          ({ (w.tickAfterLoss input since now audio dt).1 with
              events := w.events ++ #[.paused, .resumed (ClockTime.elapsed since now)] ++ new },
            (w.tickAfterLoss input since now audio dt).2) := by
  have hstep : InStep w audio := by
    have hplay := inStep_play catalog audio₀ calls
    rwa [hreach] at hplay
  have haged : InStep (w.tickEffects dt) audio := hstep.of_keeps (w.keeps_tickEffects dt)
  have hpause : World.call (w, audio) (.tick (first.pressing true) since dt) =
      ((w.tickEffects dt).held since, { audio with paused := true }) :=
    tick_pause hstep hplaying first since dt
  have hidle : (idleTicks between).foldl World.call
      ((w.tickEffects dt).held since, { audio with paused := true }) =
        ((w.tickEffects dt).held since, { audio with paused := true }) :=
    play_paused rfl _ between
  have hresume := tick_resume haged hplaying input since now dt
  have hordinary : w.tickAfterLoss input since now audio dt =
      ((w.tickEffects dt).shift (ClockTime.elapsed since now)).goOn input now audio dt :=
    tick_ordinary (w := w.shift (ClockTime.elapsed since now)) hplaying input now audio dt
  obtain ⟨new, hevents, hqueued⟩ :=
    ((w.tickEffects dt).shift (ClockTime.elapsed since now)).goOn_queued
      (w.events ++ #[.paused, .resumed (ClockTime.elapsed since now)]) input now audio dt
  refine ⟨?_, new, ?_, ?_⟩
  · rw [play, play, List.foldl_cons, List.foldl_cons, hpause, hidle, List.foldl_nil]
  · rw [hordinary]
    exact hevents
  · rw [play, List.foldl_cons, List.foldl_append, hpause, hidle, hordinary, ← hqueued]
    exact hresume

/-- A game with one enemy, which comes with the first beat. Its program is a lenient one: it
changes to another shot inside a loop that is never closed. -/
def oneDrone : GameConfig where
  settings := { strictPrograms := false }
  shots := [⟨"bolt", .enemy, 5, 0.08⟩, ⟨"bullet", .player, 5, 0.08⟩, ⟨"spark", .both, 5, 0.08⟩]
  enemies := [{ name := "drone", hurtBoxes := [⟨Vec2.zero, 0.3⟩],
                emitters := [{ shot := "bullet",
                               program := [.repeatStart 3, .fire, .setShot "spark"] }] }]
  player := ⟨[[{ shot := "bolt", program := [.fire, .waitFrames 4] }]]⟩
  stages := [⟨"stage", "track", 120, "", 0, [], [{ beat := 0, lane := 0, prefab := "drone" }]⟩]

/-- The same game, loaded. -/
def oneDroneCatalog : Catalog where
  settings := { strictPrograms := false }
  shots := oneDrone.shots
  enemies := [⟨"drone", 1, 0, [⟨Vec2.zero, 0.3⟩], [], [], .easeInOut, .linear,
    [⟨Vec2.zero, ⟨1⟩, 1, ⟨[.repeatStart 3, .fire, .setShot ⟨2⟩]⟩⟩]⟩]
  powerup := {}
  powerLevels := [[⟨Vec2.zero, ⟨0⟩, 1, ⟨[.fire, .waitFrames 4]⟩⟩]]
  stages := [⟨"stage", "track", 120, "", 0, [⟨0, 0, .enemy ⟨0⟩, .none, false, none, false⟩]⟩]
  refused := []

theorem ofConfig_oneDrone : Catalog.ofConfig oneDrone = .ok oneDroneCatalog :=
  rfl

/-- Two such drones, a beat apart, which hover where they come in. -/
def twoDrones : GameConfig :=
  { oneDrone with
    enemies := oneDrone.enemies.map fun e => { e with xCurve := .constant 0, yCurve := .constant 0 }
    stages := [⟨"stage", "track", 120, "", 0, [],
      [{ beat := 0, lane := -1, prefab := "drone" },
        { beat := 1, lane := 1, prefab := "drone" }]⟩] }

/-- The same game, loaded. -/
def twoDronesCatalog : Catalog :=
  { oneDroneCatalog with
    enemies := oneDroneCatalog.enemies.map fun a =>
      { a with xCurve := .constant 0, yCurve := .constant 0 }
    stages := [⟨"stage", "track", 120, "", 0,
      [⟨0, -1, .enemy ⟨0⟩, .none, false, none, false⟩,
       ⟨1, 1, .enemy ⟨0⟩, .none, false, none, false⟩]⟩] }

theorem ofConfig_twoDrones : Catalog.ofConfig twoDrones = .ok twoDronesCatalog :=
  rfl

/-- Both drones have come. A bomb has removed what they have fired by then. -/
def twoDronesRun : World × HeadlessAudio Float :=
  play (new twoDronesCatalog) (.new 60)
    [.startGame 0, .tick {} 1 0.02, .tick { bomb := true } 1.5 0.02]

theorem play_twoDronesRun :
    play (new twoDronesCatalog) (.new 60)
      [.startGame 0, .tick {} 1 0.02, .tick { bomb := true } 1.5 0.02] =
      (twoDronesRun.1, twoDronesRun.2) :=
  (Prod.eta twoDronesRun).symm

theorem phase_twoDronesRun : twoDronesRun.1.phase = .playing := by
  decide +kernel

/-- A pause of a second, with one tick in between. The drones have their deadlines a second later
after it, and keep their order; and they fire when the game goes on. -/
theorem pause_transparent_of_twoDrones :
    twoDronesRun.1.phase = .playing ∧
      (∃ new,
        (twoDronesRun.1.tickAfterLoss {} 2 3 twoDronesRun.2 0.02).1.events =
          twoDronesRun.1.events ++ new ∧
        play twoDronesRun.1 twoDronesRun.2 (.tick (TickInput.pressing {} true) 2 0.02 ::
            (idleTicks [({}, 2.5, 0.02)] ++ [.tick (TickInput.pressing {} true) 3 0.02])) =
          ({ (twoDronesRun.1.tickAfterLoss {} 2 3 twoDronesRun.2 0.02).1 with
              events := twoDronesRun.1.events ++ #[.paused, .resumed (ClockTime.elapsed 2 3)] ++
                new },
            (twoDronesRun.1.tickAfterLoss {} 2 3 twoDronesRun.2 0.02).2)) ∧
      [twoDronesRun.1, (twoDronesRun.1.tickAfterLoss {} 2 3 twoDronesRun.2 0.02).1].map (fun w =>
          (w.enemies.active.map fun slot => (slot.index, slot.item.destinationTime),
            w.shots.neutral.active.length)) =
        [([(0, 3), (1, 3.5)], 0), ([(0, 4), (1, 4.5)], 2)] :=
  ⟨phase_twoDronesRun, (pause_transparent play_twoDronesRun phase_twoDronesRun {} {}
    [({}, 2.5, 0.02)] 2 3 0.02).2, by decide +kernel⟩

end World

end BulletHell
