import BulletHell.World.Tick

/-!
# The phases of a tick in smaller parts

Some operations of a tick do several things at once. They are taken apart here, so that each
part can be treated by itself: the points of a tick and the extends they earn, the player's way
to the fire gate, the engagement of the enemies with what it leads to, and what a tick does
before it is played.

## Main results

* `World.earnExtends_eq`, `World.awardScore_eq` — points
* `World.movePlayer_eq` — motion, then the fire gate
* `World.resolveEnemies_eq` — the engagement, then its effects and points
* `World.resolvePlayer_cases` — the search for a hit, then the hit
* `World.startGame_eq` — everything afresh, then the first event
* `World.pause_eq`, `World.resume_eq` — pauses
* `World.simulate_eq` — the timeline, then everything that acts
* `World.tick_eq` — the effects, then the edges of the input, then play
-/

namespace BulletHell

namespace World

theorem earnExtends_eq (w : World) (every : Nat) (pos : 0 < every) :
    w.earnExtends every pos =
      if w.nextExtend ≤ w.score then
        ({ w with extendPending := true, nextExtend := w.nextExtend + every }.announce
          (.extendEarned w.score)).earnExtends every pos
      else w := by
  rw [earnExtends]

theorem awardScore_eq (w : World) {points : Nat} (hpoints : points ≠ 0) :
    w.awardScore points =
      if pos : 0 < w.catalog.settings.extendEvery then
        { w with score := w.score + points }.earnExtends w.catalog.settings.extendEvery pos
      else { w with score := w.score + points } := by
  rw [awardScore, if_neg hpoints]

/-- The first half of the player's phase: the emitters of the power level, and motion. -/
def setOut (w : World) (direction : Vec2) (dt : Float32) : World :=
  let player := w.player.load (w.catalog.powerLevel w.player.power)
  { w with player := player.move direction w.catalog.settings.player dt }

/-- The second half: the fire gate, aimed at the nearest enemy from where the player is now. -/
def workGate (w : World) (fire : Bool) : World :=
  let (player, fire) :=
    w.player.handleFire fire w.catalog.settings.player (w.fireControl w.nearestEnemy 180)
  { w with player := player.tickTimers }.adopt fire

theorem movePlayer_eq (w : World) (input : TickInput) (dt : Float32) :
    w.movePlayer input dt = (w.setOut input.movement dt).workGate input.fire :=
  rfl

/-- The skirmish of this tick. -/
def skirmish (w : World) : Skirmish where
  catalog := w.catalog
  revenge := w.catalog.settings.revengeFromLoop ≤ w.timeline.loopCount
  player := w.livingPlayer
  tick := w.tickCount

/-- The first pass, once all enemies were engaged. -/
def settle (w : World) (enemies : Pool Enemy) (toll : Toll) : World :=
  let w := { w with enemies := enemies }.adopt toll.fire
  let w := toll.contacts.reverse.foldl (fun w contact => w.addEffect contact.1 contact.2) w
  let w := toll.kills.reverse.foldl announceKill w
  w.awardScore (toll.kills.reverse.foldl (fun points kill => points + kill.2) 0)

theorem resolveEnemies_eq (w : World) :
    w.resolveEnemies =
      w.settle (w.enemies.sweep w.skirmish.engage ⟨w.fireControl w.livingPlayer 0, [], []⟩).1
        (w.enemies.sweep w.skirmish.engage ⟨w.fireControl w.livingPlayer 0, [], []⟩).2 :=
  rfl

/-- A hit changes the player, and is shown. -/
theorem exists_hurtPlayer_eq (w : World) :
    ∃ player effects events,
      w.hurtPlayer = { w with player := player, effects := effects, events := events } := by
  simp only [hurtPlayer]
  split <;> exact ⟨_, _, _, rfl⟩

/-- The second pass takes shots away at most, and then it hurts the player or it does not. -/
theorem resolvePlayer_cases (w : World) :
    ∃ shots, w.resolvePlayer = { w with shots := shots } ∨
      w.resolvePlayer = { w with shots := shots }.hurtPlayer := by
  have hfound : ∃ shots, w.findHit.2 = { w with shots := shots } := by
    simp only [findHit]
    split
    · exact ⟨_, rfl⟩
    · split <;> exact ⟨_, rfl⟩
  obtain ⟨shots, hshots⟩ := hfound
  simp only [resolvePlayer]
  split
  · exact ⟨w.shots, .inl rfl⟩
  · rw [hshots]
    split
    · exact ⟨shots, .inr rfl⟩
    · exact ⟨shots, .inl rfl⟩

/-! ### The whole tick -/

/-- Effects age while the game is played. -/
def age (w : World) (dt : Float32) : World :=
  if w.phase = .playing then w.tickEffects dt else w

/-- A tick that is played, once the timeline was followed. -/
def act (w : World) (input : TickInput) (now : Float) (dt : Float32) : World :=
  ((((w.tickEnemies now).tickPlayer input dt).tickPowerups dt).tickShots dt).resolveHits

variable {α : Type} [AudioPlayer α Float]

/-- Everything as it is at the beginning of a run. -/
def afresh (w : World) (timeline : Timeline Float) : World :=
  { w.clearPools with
    player := w.player.reset w.catalog.settings.player
    score := 0
    nextExtend := w.catalog.settings.extendEvery
    extendPending := false
    tickCount := 0
    rng := seededRng w.catalog
    carryOver := true
    timeline := timeline }

theorem startGame_eq (w : World) (now : Float) (audio : α) :
    w.startGame now audio =
      match (w.timeline.start now w.catalog.stages audio).1 with
      | some event =>
        ({ w.afresh (w.timeline.start now w.catalog.stages audio).2.1 with
            phase := .playing }.onTimelineEvent event now,
          (w.timeline.start now w.catalog.stages audio).2.2)
      | none =>
        ({ w.afresh (w.timeline.start now w.catalog.stages audio).2.1 with phase := .idle },
          (w.timeline.start now w.catalog.stages audio).2.2) :=
  rfl

theorem simulate_eq (w : World) (input : TickInput) (now : Float) (audio : α) (dt : Float32) :
    w.simulate input now audio dt =
      (({ w with tickCount := w.tickCount + 1 }.followTimeline now audio).1.act input now dt,
        ({ w with tickCount := w.tickCount + 1 }.followTimeline now audio).2) :=
  rfl

/-! ### Pauses -/

/-- A run that goes on can be paused. -/
theorem pause_eq {w : World} (hplaying : w.phase = .playing) (hactive : w.timeline.state = .active)
    (now : Float) (audio : α) :
    w.pause now audio =
      (true,
        { w with
          timeline := { w.timeline with state := .paused now }
          phase := .paused
          events := w.events.push .paused },
        AudioPlayer.setPaused audio true) := by
  rw [pause, if_pos hplaying]
  simp only [Timeline.pause?, hactive]
  rfl

/-- Nothing else can be paused. -/
theorem pause_cases (w : World) (now : Float) (audio : α) :
    w.pause now audio = (false, w, audio) ∨ w.phase = .playing ∧ w.timeline.state = .active := by
  by_cases hplaying : w.phase = .playing
  · cases hstate : w.timeline.state with
    | active => exact .inr ⟨hplaying, rfl⟩
    | _ =>
      left
      rw [pause, if_pos hplaying]
      simp only [Timeline.pause?, hstate]
  · exact .inl (if_neg hplaying)

/-- A run that is paused goes on later by the time that was lost. -/
theorem resume_eq {w : World} {since : Float} (hpaused : w.phase = .paused)
    (hstate : w.timeline.state = .paused since) (now : Float) (audio : α) :
    w.resume now audio =
      (true,
        { w with
          timeline := { w.timeline.shift (ClockTime.elapsed since now) with state := .active }
          enemies := w.enemies.update fun enemy => enemy.onUnpause (ClockTime.elapsed since now)
          phase := .playing
          events := w.events.push (.resumed (ClockTime.elapsed since now)) },
        AudioPlayer.setPaused audio false) := by
  rw [resume, if_pos hpaused]
  simp only [Timeline.resume?, hstate]
  rfl

/-- Nothing else can be resumed. -/
theorem resume_cases (w : World) (now : Float) (audio : α) :
    w.resume now audio = (false, w, audio) ∨
      w.phase = .paused ∧ ∃ since, w.timeline.state = .paused since := by
  by_cases hpaused : w.phase = .paused
  · cases hstate : w.timeline.state with
    | paused since => exact .inr ⟨hpaused, since, rfl⟩
    | _ =>
      left
      rw [resume, if_pos hpaused]
      simp only [Timeline.resume?, hstate]
  · exact .inl (if_neg hpaused)

/-! ### A tick from its beginning -/

/-- What a tick does after restart and pause: it is played, or ends the run. -/
def goOn (w : World) (input : TickInput) (now : Float) (audio : α) (dt : Float32) : World × α :=
  if w.phase ≠ .playing then (w, audio)
  else if !w.player.isAlive then w.endGame audio
  else w.simulate input now audio dt

theorem tick_eq (w : World) (input : TickInput) (now : Float) (audio : α) (dt : Float32) :
    w.tick input now audio dt =
      if input.restart then (w.age dt).startGame now audio
      else if input.pause then
        ((w.age dt).togglePause now audio).1.goOn input now ((w.age dt).togglePause now audio).2 dt
      else (w.age dt).goOn input now audio dt := by
  simp only [tick, age, goOn]
  split
  · rfl
  · split <;> rfl

end World

end BulletHell
