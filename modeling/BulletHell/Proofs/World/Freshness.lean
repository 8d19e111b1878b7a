import BulletHell.Proofs.World.MidTick
import BulletHell.Proofs.World.Pause

/-!
# Fresh shots wait

A shot that is launched in a tick neither moves nor hits before the next one. It is recognised by
an equality: it was born on the tick that is being played. The count of ticks starts again from
zero with every run, so the equality would also hold of an older shot that was born on a later
tick of the run before. There is none, since a new run begins with empty pools; and within a run
no active shot was born on a tick that is still to come.

## Main definitions

* `World.Aged` — no active shot was born on a later tick

## Main results

* `World.aged_play` — a whole session from a new game
* `World.exists_midTick_simulate` — a tick that is played, from beginning to end
* `World.fresh_shots_wait`
-/

namespace BulletHell

namespace World

variable {α : Type} [AudioPlayer α Float] {w : World}

/-! ### Lives and bombs -/

/-- The player has the same lives and bombs. -/
structure SamePurse (p p' : Player) : Prop where
  lives : p'.lives = p.lives
  bombs : p'.bombs = p.bombs

theorem SamePurse.isAlive {p p' : Player} (h : SamePurse p p') : p'.isAlive = p.isAlive :=
  congrArg (fun lives => decide (0 < lives)) h.lives

theorem dispatchSpawn_player (timing : LegTiming) (w : World) (event : SpawnEvent) :
    (w.dispatchSpawn timing event).player = w.player := by
  simp only [dispatchSpawn]
  split
  · split
    · simp only [spawnEnemy]
      split
      · rfl
      · split <;> rfl
    · simp only [spawnPowerup]
      split <;> rfl
  · rfl

/-- All that a beat does to the player is that it is heard. -/
theorem onTimelineEvent_player (w : World) (info : BeatInfo) (now : Float) :
    (w.onTimelineEvent (.beat info) now).player = w.player.onBeat := by
  have hannounced : (w.announceBeat info).player = w.player := by
    simp only [announceBeat]
    split <;> rfl
  have hspawned : ∀ events : List SpawnEvent,
      (events.foldl (dispatchSpawn ((w.announceBeat info).legTiming now))
        (w.announceBeat info)).player = w.player := by
    intro events
    exact List.foldlRecOn (motive := fun w' : World => w'.player = w.player) events _ hannounced
      fun w' h event _ => (dispatchSpawn_player _ w' event).trans h
  exact congrArg Player.onBeat (hspawned _)

theorem samePurse_onTimelineEvent (w : World) (event : TimelineEvent Float) (now : Float) :
    SamePurse w.player (w.onTimelineEvent event now).player := by
  cases event with
  | stageStarted => exact ⟨rfl, rfl⟩
  | beat info =>
    rw [onTimelineEvent_player]
    exact ⟨rfl, rfl⟩

theorem samePurse_followTimeline (w : World) (now : Float) (audio : α) :
    SamePurse w.player (w.followTimeline now audio).1.player := by
  simp only [followTimeline]
  split
  · exact samePurse_onTimelineEvent
      { w with timeline := (w.timeline.advance now w.catalog.stages audio).2.1 } _ now
  · exact ⟨rfl, rfl⟩

theorem samePurse_movePlayer (w : World) (input : TickInput) (dt : Float32) :
    SamePurse w.player (w.movePlayer input dt).player := by
  have hload : ∀ specs, SamePurse w.player (w.player.load specs) := by
    intro specs
    rw [Player.load]
    split <;> exact ⟨rfl, rfl⟩
  obtain ⟨hlives, hbombs⟩ := hload (w.catalog.powerLevel w.player.power)
  exact ⟨hlives, hbombs⟩

/-! ### One tick -/

/-- Is a bomb used in a tick with this input? -/
def bombs (w : World) (input : TickInput) : Bool :=
  input.bomb && w.player.bombs ≠ 0

/-- The launches whose shots no bomb has removed, for each pool: the bomb is used after enemies and
player have fired, and before killed enemies take their revenge. -/
def unbombed (w : World) (input : TickInput) (early late : List Launch) (target : ShotTarget) :
    List Launch :=
  if w.bombs input ∧ target ≠ .enemy then late else early ++ late

theorem mem_of_mem_unbombed {input : TickInput} {early late : List Launch} {target : ShotTarget}
    {l : Launch} (h : l ∈ w.unbombed input early late target) : l ∈ early ++ late := by
  rw [unbombed] at h
  split at h
  · exact List.mem_append_right early h
  · exact h

/-- The player's phase. -/
theorem MidTick.tickPlayer {tick : Nat} {queued : Array GameEvent}
    {aged : ShotTarget → List (Slot Shot)} {launches : List Launch}
    (h : MidTick tick queued aged launches (fun _ => launches) w) (halive : w.player.isAlive = true)
    (input : TickInput) (dt : Float32) :
    ∃ ls, MidTick tick queued aged (launches ++ ls)
      (fun target => if w.bombs input ∧ target ≠ .enemy then [] else launches ++ ls)
      (w.tickPlayer input dt) := by
  obtain ⟨ls, hmoved⟩ := h.movePlayer input dt
  have hpurse := w.samePurse_movePlayer input dt
  refine ⟨ls, ?_⟩
  rw [World.tickPlayer]
  cases hbomb : input.bomb with
  | false =>
    refine hmoved.of_flying fun target => ?_
    simp [bombs, hbomb]
  | true =>
    refine (hmoved.useBomb (hpurse.isAlive.trans halive)).of_flying fun target => ?_
    simp [bombs, hbomb, hpurse.bombs]

/-- Everything that acts before the hits, when all shots were there before. -/
theorem MidTick.fly {tick : Nat} {queued : Array GameEvent} {aged : ShotTarget → List (Slot Shot)}
    (h : MidTick tick queued aged [] (fun _ => []) w) (halive : w.player.isAlive = true)
    (haged : ∀ target, ∀ slot ∈ aged target, slot.item.bornTick ≠ tick) (input : TickInput)
    (now : Float) (dt : Float32) :
    ∃ early, MidTick tick queued (fun target => (aged target).map (Slot.moved dt)) early
      (w.unbombed input early [])
      ((((w.tickEnemies now).tickPlayer input dt).tickPowerups dt).tickShots dt) := by
  obtain ⟨enemies, hfired⟩ := h.tickEnemies now
  obtain ⟨player, hplayed⟩ := hfired.tickPlayer halive input dt
  have hflown := (hplayed.of_quiet (quiet_tickPowerups _ dt) rfl rfl).tickShots haged dt
  refine ⟨enemies ++ player, hflown.of_flying ?_⟩
  intro target
  have hbombs : (w.tickEnemies now).bombs input = w.bombs input := rfl
  rw [unbombed, hbombs, List.append_nil]
  rfl

/-- **Everything that acts in a tick**, when all shots were there before. -/
theorem MidTick.act {tick : Nat} {queued : Array GameEvent} {aged : ShotTarget → List (Slot Shot)}
    (h : MidTick tick queued aged [] (fun _ => []) w) (halive : w.player.isAlive = true)
    (haged : ∀ target, ∀ slot ∈ aged target, slot.item.bornTick ≠ tick) (input : TickInput)
    (now : Float) (dt : Float32) :
    ∃ early late, MidTick tick queued (fun target => (aged target).map (Slot.moved dt))
      (early ++ late) (w.unbombed input early late) (w.act input now dt) := by
  obtain ⟨early, hflown⟩ := h.fly halive haged input now dt
  obtain ⟨late, hfirst⟩ := exists_firstPass
    ((((w.tickEnemies now).tickPlayer input dt).tickPowerups dt).tickShots dt)
  refine ⟨early, late, (hflown.resolveEnemies hfirst).resolvePlayer.of_flying ?_⟩
  intro target
  rw [unbombed, unbombed]
  split
  · rfl
  · rw [List.append_nil]

/-- No active shot was born on a tick that is still to come. -/
def Aged (w : World) : Prop :=
  ∀ target, ∀ slot ∈ (w.shots.pool target).active, slot.item.bornTick ≤ w.tickCount

/-- **A tick that is played**, from beginning to end: the shots that were there have moved once,
and the launched ones have not. -/
theorem exists_midTick_simulate (h : w.Aged) (halive : w.player.isAlive = true)
    (input : TickInput) (now : Float) (audio : α) (dt : Float32) :
    ∃ early late, MidTick (w.tickCount + 1) w.events
      (fun target => ((w.shots.pool target).active).map (Slot.moved dt)) (early ++ late)
      (w.unbombed input early late) (w.simulate input now audio dt).1 := by
  have hkeeps := keeps_followTimeline { w with tickCount := w.tickCount + 1 } now audio
  have hpurse := samePurse_followTimeline { w with tickCount := w.tickCount + 1 } now audio
  have hfollowed := (MidTick.start { w with tickCount := w.tickCount + 1 }).of_quiet
    (quiet_followTimeline _ now audio) hkeeps.catalog hkeeps.tickCount
  obtain ⟨early, late, hacted⟩ := hfollowed.act (hpurse.isAlive.trans halive)
    (fun target slot hslot => Nat.ne_of_lt (Nat.lt_succ_of_le (h target slot hslot))) input now dt
  refine ⟨early, late, ?_⟩
  rw [simulate_eq]
  exact hacted.of_flying fun target => by rw [unbombed, unbombed, bombs, bombs, hpurse.bombs]

/-! ### Sessions -/

/-- A run begins without shots. -/
theorem active_startGame (w : World) (now : Float) (audio : α) (target : ShotTarget) :
    ((w.startGame now audio).1.shots.pool target).active = [] := by
  have hempty : (w.shots.clear.pool target).active = [] := by cases target <;> rfl
  simp only [World.startGame]
  split
  · rw [(quiet_onTimelineEvent _ _ now).shots]
    exact hempty
  · exact hempty

namespace Aged

/-- What leaves shots and the count alone. -/
theorem of_eq (h : w.Aged) {w' : World} (hshots : w'.shots = w.shots)
    (htick : w'.tickCount = w.tickCount) : w'.Aged := by
  intro target slot hslot
  rw [htick]
  exact h target slot (hshots ▸ hslot)

/-- No shots at all. -/
theorem of_empty (h : ∀ target, (w.shots.pool target).active = []) : w.Aged := by
  intro target slot hslot
  rw [h target] at hslot
  cases hslot

/-- The count starts again, and so do the pools. -/
theorem startGame (w : World) (now : Float) (audio : α) : (w.startGame now audio).1.Aged :=
  of_empty (w.active_startGame now audio)

theorem pause (h : w.Aged) (now : Float) (audio : α) : (w.pause now audio).2.1.Aged := by
  rcases w.pause_cases now audio with hnone | ⟨hplaying, hactive⟩
  · rw [hnone]
    exact h
  · rw [pause_eq hplaying hactive]
    exact h.of_eq rfl rfl

theorem resume (h : w.Aged) (now : Float) (audio : α) : (w.resume now audio).2.1.Aged := by
  rcases w.resume_cases now audio with hnone | ⟨hpaused, since, hstate⟩
  · rw [hnone]
    exact h
  · rw [resume_eq hpaused hstate]
    exact h.of_eq rfl rfl

theorem simulate (h : w.Aged) (halive : w.player.isAlive = true) (input : TickInput) (now : Float)
    (audio : α) (dt : Float32) : (w.simulate input now audio dt).1.Aged := by
  obtain ⟨early, late, hplayed⟩ := exists_midTick_simulate h halive input now audio dt
  intro target slot hslot
  obtain ⟨kept, new, hactive, hkept, hnew⟩ := hplayed.shots target
  rw [hplayed.tickCount]
  rw [hactive] at hslot
  rcases List.mem_append.mp hslot with hold | hfresh
  · obtain ⟨before, hbefore, rfl⟩ := List.mem_map.mp (hkept.subset hold)
    exact Nat.le_succ_of_le (h target before hbefore)
  · exact Nat.le_of_eq (Launch.bornTick_of_mem_shotsFor (hnew ▸ List.mem_map_of_mem hfresh))

end Aged

theorem kept_aged : Kept fun w (_ : α) => w.Aged where
  tickEffects _ h := h.of_eq rfl rfl
  startGame now _ := .startGame _ now _
  pause now h := h.pause now _
  resume now h := h.resume now _
  endGame h := h.of_eq rfl rfl
  simulate input now dt _ halive h := h.simulate halive input now _ dt
  drainEvents h := h.of_eq rfl rfl

/-- **A whole session** from a new game. -/
theorem aged_play (catalog : Catalog) (audio : α) (calls : List Call) :
    (play (new catalog) audio calls).1.Aged :=
  kept_aged.play (.of_empty fun target => by cases target <;> rfl) calls

theorem goOn_of_alive (hplaying : w.phase = .playing) (halive : w.player.isAlive = true)
    (input : TickInput) (now : Float) (audio : α) (dt : Float32) :
    w.goOn input now audio dt = w.simulate input now audio dt := by
  rw [goOn, if_neg (not_not_intro hplaying), halive]
  rfl

/-- **Fresh shots wait.** Take any session of a game up to a moment at which it is being played,
the player is alive, and a tick follows that neither pauses nor restarts. In each pool, what was
active before and still is has moved by exactly one step. Behind it, in order, are the shots that
the tick has launched and announced, each at the origin of its request and born on this tick; hits
have taken none of them. Only the bomb has: it comes after enemies and player have fired, and
before killed enemies take their revenge. -/
theorem fresh_shots_wait {catalog : Catalog} {audio₀ audio : α} {calls : List Call}
    (hreach : play (new catalog) audio₀ calls = (w, audio)) (hplaying : w.phase = .playing)
    (halive : w.player.isAlive = true) {input : TickInput} (hrestart : input.restart = false)
    (hpause : input.pause = false) (now : Float) (dt : Float32) :
    (w.tick input now audio dt).1.tickCount = w.tickCount + 1 ∧
      ∃ early late,
        Tells (early ++ late) w.events (w.tick input now audio dt).1.events ∧
        ∀ target, ∃ kept new,
          ((w.tick input now audio dt).1.shots.pool target).active = kept ++ new ∧
          kept.Sublist ((w.shots.pool target).active.map (Slot.moved dt)) ∧
          new.map (·.item) =
            Launch.shotsFor target (w.tickCount + 1) (w.unbombed input early late target) := by
  have haged : w.Aged := by
    have hplay := aged_play catalog audio₀ calls
    rwa [hreach] at hplay
  have htick : w.tick input now audio dt = (w.tickEffects dt).simulate input now audio dt := by
    rw [tick_eq, hrestart, hpause, if_neg Bool.false_ne_true, if_neg Bool.false_ne_true, age,
      if_pos hplaying]
    exact goOn_of_alive (w := w.tickEffects dt) hplaying halive input now audio dt
  obtain ⟨early, late, hplayed⟩ :=
    exists_midTick_simulate (w := w.tickEffects dt) (haged.of_eq rfl rfl) halive input now audio dt
  rw [htick]
  exact ⟨hplayed.tickCount, early, late, hplayed.events, hplayed.shots⟩

/-- The run begins anew, and the first drone has fired when its first tick is over. -/
def twoDronesAgain : World × HeadlessAudio Float :=
  play (new twoDronesCatalog) (.new 60)
    [.startGame 0, .tick {} 1 0.02, .tick { bomb := true } 1.5 0.02,
      .tick { restart := true } 2 0.02, .tick {} 3 0.02]

theorem play_twoDronesAgain :
    play (new twoDronesCatalog) (.new 60)
      [.startGame 0, .tick {} 1 0.02, .tick { bomb := true } 1.5 0.02,
        .tick { restart := true } 2 0.02, .tick {} 3 0.02] =
      (twoDronesAgain.1, twoDronesAgain.2) :=
  (Prod.eta twoDronesAgain).symm

/-- Both drones and the player fire, and each spark waits on the drone that has fired it. In the
next run a bomb is used in the second tick, when there is an older bullet. It leaves nothing but the
bolt that the player fires in that tick. -/
theorem fresh_shots_wait_of_twoDrones :
    let after := (twoDronesRun.1.tick { fire := true } 1.52 twoDronesRun.2 0.02).1
    let after' :=
      (twoDronesAgain.1.tick { fire := true, bomb := true } 3.5 twoDronesAgain.2 0.02).1
    (twoDronesRun.1.phase = .playing ∧ twoDronesRun.1.player.isAlive = true ∧
      (after.tickCount = twoDronesRun.1.tickCount + 1 ∧
        ∃ early late,
          Tells (early ++ late) twoDronesRun.1.events after.events ∧
          ∀ target, ∃ kept new,
            (after.shots.pool target).active = kept ++ new ∧
            kept.Sublist ((twoDronesRun.1.shots.pool target).active.map (Slot.moved 0.02)) ∧
            new.map (·.item) = Launch.shotsFor target (twoDronesRun.1.tickCount + 1)
              (twoDronesRun.1.unbombed { fire := true } early late target)) ∧
      after.shots.neutral.items.map (fun spark =>
          (spark.bornTick, spark.position.x, spark.position.y)) =
        [(3, -1, 4.5), (3, 1, 4.5)] ∧
      after.shots.player.items.map (fun bolt =>
          (bolt.bornTick, bolt.position.x, bolt.position.y)) =
        [(3, 0, -2.5)] ∧
      after.enemies.items.map (fun drone =>
          (drone.health, drone.position.x, drone.position.y)) =
        [(1, -1, 4.5), (1, 1, 4.5)]) ∧
    twoDronesAgain.1.phase = .playing ∧ twoDronesAgain.1.player.isAlive = true ∧
      (after'.tickCount = twoDronesAgain.1.tickCount + 1 ∧
        ∃ early late,
          Tells (early ++ late) twoDronesAgain.1.events after'.events ∧
          ∀ target, ∃ kept new,
            (after'.shots.pool target).active = kept ++ new ∧
            kept.Sublist ((twoDronesAgain.1.shots.pool target).active.map (Slot.moved 0.02)) ∧
            new.map (·.item) = Launch.shotsFor target (twoDronesAgain.1.tickCount + 1)
              (twoDronesAgain.1.unbombed { fire := true, bomb := true } early late target)) ∧
      twoDronesAgain.1.shots.enemy.items.map (·.bornTick) = [1] ∧
      [after'.shots.enemy, after'.shots.neutral, after'.shots.player].map
        (fun pool => pool.items.map (·.bornTick)) = [[], [], [2]] := by
  have halive : twoDronesRun.1.player.isAlive = true := by decide +kernel
  have hagain : twoDronesAgain.1.phase = .playing := by decide +kernel
  have halive' : twoDronesAgain.1.player.isAlive = true := by decide +kernel
  have hrun := fresh_shots_wait play_twoDronesRun phase_twoDronesRun halive
    (rfl : TickInput.restart { fire := true } = false) rfl 1.52 0.02
  have hnext := fresh_shots_wait play_twoDronesAgain hagain halive'
    (rfl : TickInput.restart { fire := true, bomb := true } = false) rfl 3.5 0.02
  exact ⟨⟨phase_twoDronesRun, halive, hrun, by decide +kernel, by decide +kernel,
    by decide +kernel⟩, hagain, halive', hnext, by decide +kernel, by decide +kernel⟩

end World

end BulletHell
