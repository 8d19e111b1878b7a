import BulletHell.Proofs.Actor.Firings
import BulletHell.Proofs.Random
import BulletHell.Proofs.World.Loadout

/-!
# Random fire stays in its spread

Fire control draws a random angle from a range around zero, which is as wide as the spread that it
was asked for. The spread of a shot is the offset of the emitter that fires it, so a shot that is
fired at random is off its target by no more than that offset.

What has to be followed through a run is which emitter has fired a shot, and at what moment. All
emitters of a tick draw from one generator, the enemies first and then the player, and each of them
finds it as the others have left it. So the shots of a run are told twice here. Once they are what
fire control was asked for, by the enemies in their pass and by the fire gate behind it; and once
they are fired, each by an emitter into the fire control of its moment. Both come to the same, shot
for shot.

No other phase of a tick runs an emitter, and a tick that is not played runs none at all. Shots in
revenge are not among those told here: no emitter fires them, and they are not fired in a mode.

## Main definitions

* `World.acting` — the moment of a tick at which the enemies act
* `World.asked`, `World.fires` — the shots that a call asks for, and those that it fires

## Main results

* `FireControl.natAbs_randomSpread_le` — a draw, for every state of the generator
* `FireControl.request_angle_of_random` — the angle of a shot that is fired at random
* `World.asked_eq` — what is asked for is what is fired
* `World.random_fire_stays_in_its_spread`
-/

namespace BulletHell

namespace FireControl

/-! ### Draws -/

/-- The magnitude that a spread counts by. -/
def reach (spread : Int) : Nat :=
  min spread.natAbs 0x7fffffff

theorem reach_fits (spread : Int) : 2 * reach spread + 1 ≤ Pcg32.wordCount := by
  rw [reach, Pcg32.wordCount]
  omega

/-- **A draw** does not exceed the magnitude of the spread. -/
theorem natAbs_randomSpread_le (f : FireControl) (spread : Int) :
    (f.randomSpread spread).1.natAbs ≤ reach spread :=
  f.rng.natAbs_uniform_le (reach_fits spread)

/-- **A shot that is fired at random** is off the target by what was drawn. Where the target is has
nothing to do with the draw. -/
theorem request_angle_of_random {x : Emitter.Firing FireControl} (h : x.shooter.mode = .random) :
    x.request.angle = wrapAngle
      (x.ctx.angleToTarget x.origin + (x.ctx.randomSpread x.shooter.angleOffset).1) := by
  rw [Int.add_comm]
  refine (x.shooter.aim_eq x.origin x.ctx).trans ?_
  rw [Emitter.addends, h]
  rfl

end FireControl

namespace World

variable {α : Type} [AudioPlayer α Float]

/-! ### What is asked for -/

/-- The moment of a tick that is played at which the enemies act. -/
def acting (p : PlayedTick α) : World :=
  ({ p.world with tickCount := p.world.tickCount + 1 }.followTimeline p.now p.audio).1

/-- The fire control that the enemies find. -/
def enemyFire (p : PlayedTick α) : FireControl :=
  (acting p).fireControl (acting p).livingPlayer 0

/-- The fire control that the player finds. -/
def playerFire (p : PlayedTick α) : FireControl :=
  (aiming p).fireControl (aiming p).nearestEnemy 180

/-- The shots that the enemies ask for in their pass. -/
def askedByEnemies (p : PlayedTick α) : List ShotRequest :=
  ((acting p).enemies.sweep
    (fun noted enemy => enemy.tick p.now (acting p).catalog.settings.fireCutoffHeight noted)
    (Noted.blank (enemyFire p))).2.requests

/-- The shots that the player asks for. -/
def askedByPlayer (p : PlayedTick α) : List ShotRequest :=
  ((aiming p).player.handleFire p.input.fire (aiming p).catalog.settings.player
    (Noted.blank (playerFire p))).2.requests

/-- The shots that a call asks for. -/
def asked (s : World × α) (c : Call) : List ShotRequest :=
  (played s c).toList.flatMap fun p => askedByEnemies p ++ askedByPlayer p

/-! ### What is fired -/

/-- The ticks of the enemies, each with the fire control that it finds. -/
def enemyTicks (p : PlayedTick α) : List (Enemy.Tick FireControl) :=
  let cutoff := (acting p).catalog.settings.fireCutoffHeight
  (Pool.visits (fun fire enemy => enemy.tick p.now cutoff fire) (acting p).enemies.active
    (enemyFire p)).map fun v => ⟨v.2, p.now, cutoff, v.1⟩

/-- The fire gate, with the button as it is held. -/
def heldGate (p : PlayedTick α) : FireGate :=
  if p.input.fire then
    { (aiming p).player.gate with
      frames := (aiming p).catalog.settings.player.fireBufferFrames }
  else (aiming p).player.gate

/-- The shots that are fired in a tick that is played. -/
def firedIn (p : PlayedTick α) : List (Emitter.Firing FireControl) :=
  (enemyTicks p).flatMap Enemy.Tick.firings ++
    (heldGate p).firings (aiming p).player.position (playerFire p)

/-- The shots that a call fires. -/
def fires (s : World × α) (c : Call) : List (Emitter.Firing FireControl) :=
  (played s c).toList.flatMap firedIn

/-- One enemy after the other adds to the notes what it fires. -/
theorem askedByEnemies_eq (p : PlayedTick α) :
    askedByEnemies p =
      ((enemyTicks p).flatMap Enemy.Tick.firings).map Emitter.Firing.request := by
  let cutoff := (acting p).catalog.settings.fireCutoffHeight
  rw [askedByEnemies, Pool.sweep_eq, enemyTicks, List.flatMap_map, List.map_flatMap]
  refine Pool.told_sweepSlots Noted.context Noted.requests
    (fun fire enemy => (Enemy.Tick.firings ⟨enemy, p.now, cutoff, fire⟩).map
      Emitter.Firing.request) (fun noted enemy => ?_)
    (acting p).enemies.active (Noted.blank (enemyFire p))
  let t : Enemy.Tick (Noted FireControl) := ⟨enemy, p.now, cutoff, noted⟩
  exact ⟨(congrArg (·.2.2) t.result_unnoted).symm, t.result_requests⟩

theorem askedByPlayer_eq (p : PlayedTick α) :
    askedByPlayer p =
      ((heldGate p).firings (aiming p).player.position (playerFire p)).map
        Emitter.Firing.request :=
  (heldGate p).requests_eq (aiming p).player.position (playerFire p)

/-- **What a call asks for** is what it fires. -/
theorem asked_eq (s : World × α) (c : Call) :
    asked s c = (fires s c).map Emitter.Firing.request := by
  rw [asked, fires, List.map_flatMap]
  refine List.flatMap_congr fun p _ => ?_
  rw [firedIn, List.map_append, askedByEnemies_eq, askedByPlayer_eq]

/-- **Random fire stays in its spread.** A draw that is asked for with some spread is the product of
a random fraction and the number of angles in reach, rounded down and counted from the lower end;
so it is never out of reach to either side, whatever the state of the generator, and the greatest
magnitude counts as the one before it. Hence in every run, from any state of the game on, the shots
that enemies and the player ask for are those that their emitters fire, and one that is fired at
random is off its target by no more than the offset of the emitter. -/
theorem random_fire_stays_in_its_spread :
    (∀ (f : FireControl) (spread : Int),
      let bound := min spread.natAbs 0x7fffffff
      let v := (f.randomSpread spread).1
      v = -(bound : Int) +
          ((2 * bound + 1) * f.rng.fraction / (Pcg32.wordCount * Pcg32.wordCount) : Nat) ∧
        -(bound : Int) ≤ v ∧ v ≤ bound) ∧
    ∀ (s : World × α) (calls : List Call),
      sinceStart asked s [] calls = (sinceStart fires s [] calls).map Emitter.Firing.request ∧
      ∀ x ∈ sinceStart fires s [] calls, x.shooter.mode = .random →
        ∃ v, v = (x.ctx.randomSpread x.shooter.angleOffset).1 ∧
          v.natAbs ≤ x.shooter.angleOffset.natAbs ∧
          x.request.angle = wrapAngle (x.ctx.angleToTarget x.origin + v) := by
  refine ⟨fun f spread => ?_, fun s calls => ⟨gather_map asked_eq s [] calls, ?_⟩⟩
  · intro bound v
    have hle : v.natAbs ≤ bound := f.natAbs_randomSpread_le spread
    exact ⟨f.rng.uniform_eq (FireControl.reach_fits spread), by omega, by omega⟩
  · intro x _ hrandom
    have hle := x.ctx.natAbs_randomSpread_le x.shooter.angleOffset
    exact ⟨_, rfl, Nat.le_trans hle (Nat.min_le_left _ _),
      FireControl.request_angle_of_random hrandom⟩

/-- A game without enemies, in which the player fires straight up, give or take 15 degrees. -/
def scatterCatalog : Catalog where
  settings := {}
  shots := [⟨"bolt", .enemy, 5, 0.08⟩]
  enemies := []
  powerup := {}
  powerLevels := [[⟨Vec2.zero, ⟨0⟩, 1, ⟨[.setMode .random, .offsetAngle 15, .fire]⟩⟩]]
  stages := [⟨"stage", "track", 120, "", 0, []⟩]
  refused := []

/-- The button is held for two ticks. -/
def scatterCalls : List Call :=
  [.startGame 0, .tick { fire := true } 1 0.02, .tick { fire := true } 1.02 0.02]

/-- The first draw is at the end of the range. -/
theorem random_fire_stays_in_its_spread_of_scatter :
    let game : World × HeadlessAudio Float := (new scatterCatalog, .new 60)
    (sinceStart asked game [] scatterCalls).map (·.angle) = [165, -176] ∧
      (sinceStart fires game [] scatterCalls).length = 2 ∧
      ∀ x ∈ sinceStart fires game [] scatterCalls, x.shooter.mode = .random ∧
        ∃ v, v = (x.ctx.randomSpread 15).1 ∧ v.natAbs ≤ 15 ∧
          x.request.angle = wrapAngle (180 + v) := by
  intro game
  have hangles : (sinceStart fires game [] scatterCalls).map (·.request.angle) = [165, -176] := by
    decide +kernel
  have haims : ∀ x ∈ sinceStart fires game [] scatterCalls, x.shooter.mode = .random ∧
      x.shooter.angleOffset = 15 ∧ x.ctx.angleToTarget x.origin = 180 := by decide +kernel
  obtain ⟨-, hruns⟩ := random_fire_stays_in_its_spread (α := HeadlessAudio Float)
  obtain ⟨hasked, hspread⟩ := hruns game scatterCalls
  refine ⟨?_, ?_, fun x hx => ?_⟩
  · rw [hasked, List.map_map]
    exact hangles
  · exact (List.length_map _).symm.trans (congrArg List.length hangles)
  · obtain ⟨hmode, hoffset, htarget⟩ := haims x hx
    have hfired := hspread x hx hmode
    rw [hoffset, htarget] at hfired
    exact ⟨hmode, hfired⟩

end World

end BulletHell
