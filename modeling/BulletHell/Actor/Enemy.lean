import BulletHell.Geometry.Circle
import BulletHell.Geometry.Curve
import BulletHell.Geometry.Playfield
import BulletHell.Pattern.Group
import BulletHell.Stage.Basic

/-!
# Enemies

An enemy follows its route leg by leg. The legs are timed on the audio clock and counted in
beats; the last one is always the exit off the bottom. On the way it runs its emitters in
bursts: a burst is one run of all programs to their end.

## Main definitions

* `EnemyArchetype` — what enemies of one kind have in common.
* `Enemy.spawn` — an enemy enters.
* `Enemy.tick` — motion and fire, once per simulation step.
* `Enemy.onBeat` — the beat that ends legs and beat waits.
* `Enemy.fireRevenge` — one aimed shot from every emitter of a killed enemy.

## Implementation notes

Where a leg began is only written when a leg takes time. An enemy whose first leg is a jump
still has the beginning of the leg that its slot was last used for; it matters if the jump is
prolonged by a pause, since motion is then drawn from there.
-/

namespace BulletHell

/-- What enemies of one kind have in common. -/
structure EnemyArchetype where
  name : String
  health : Float32
  score : Nat
  /-- Boxes that take damage. -/
  hurtBoxes : List Circle
  /-- Boxes that absorb shots without damage. -/
  shieldBoxes : List Circle
  /-- Boxes that hurt the player. -/
  hitBoxes : List Circle
  xCurve : Curve
  yCurve : Curve
  emitters : List EmitterSpec

/-- All that is needed to bring an enemy on screen. -/
structure EnemySpawn where
  id : EnemyId
  archetype : EnemyArchetype
  lane : Float32
  mirrored : Bool
  exempt : Bool
  route : Option RouteRef

/-- The timing that all legs share. -/
structure LegTiming where
  now : Float
  beatLength : Float
  exitBeats : Nat

structure Enemy where
  /-- The most emitters that fit. -/
  maxEmitters : Nat
  /-- The most loops that an emitter may have open. -/
  maxDepth : Nat
  archetype : EnemyId
  position : Vec2
  health : Float32
  mirrored : Bool
  exempt : Bool
  xCurve : Curve
  yCurve : Curve
  emitters : List Emitter
  /-- A burst is in progress. -/
  firing : Bool
  /-- Bursts left on this leg; `none` for any number. -/
  burstsLeft : Option Nat
  holdingFire : Bool
  /-- The next burst begins afresh. -/
  rearm : Bool
  waitToFire : Bool
  route : Option (List RouteStep)
  nextStep : Nat
  /-- Beats left on this leg. -/
  beatsToGo : Int
  /-- Where the last leg that took time began. -/
  start : Vec2
  destination : Vec2
  /-- When the leg ends. -/
  destinationTime : Float
  legDuration : Float
  /-- On the last leg. -/
  exiting : Bool

namespace Enemy

/-- A slot that no enemy has used yet. -/
def blank (maxEmitters maxDepth : Nat) : Enemy where
  maxEmitters := maxEmitters
  maxDepth := maxDepth
  archetype := ⟨0⟩
  position := Vec2.zero
  health := 0
  mirrored := false
  exempt := false
  xCurve := .linear
  yCurve := .linear
  emitters := []
  firing := false
  burstsLeft := none
  holdingFire := false
  rearm := false
  waitToFire := false
  route := none
  nextStep := 0
  beatsToGo := 0
  start := Vec2.zero
  destination := Vec2.zero
  destinationTime := 0
  legDuration := 0
  exiting := false

/-- Counted by the spawn condition `noEnemiesPresent`. -/
def isCounted (e : Enemy) : Bool :=
  !e.exempt

/-! ### Legs -/

/-- Sets out for a target. A leg of no beats gets there at once. The countdown has 32 bits. -/
def startMove (e : Enemy) (target : Vec2) (beats : Nat) (mirrored : Bool) (timing : LegTiming) :
    Enemy :=
  let target : Vec2 := if mirrored then ⟨-target.x, target.y⟩ else target
  let e := { e with beatsToGo := Int.bmod beats 0x100000000, destination := target }
  if beats = 0 then { e with position := target, destinationTime := timing.now }
  else
    let duration := doubleOfInt beats * timing.beatLength
    { e with start := e.position, legDuration := duration,
             destinationTime := timing.now + duration }

/-- Sets out on the last leg, straight down. -/
def exitStage (e : Enemy) (timing : LegTiming) : Enemy :=
  { e with exiting := true }.startMove ⟨e.position.x, -Playfield.entryHeight⟩ timing.exitBeats
    false timing

/-- Takes the next step of the route, or the last leg where there is none. Fire that was held
is released and begins afresh. -/
def takeStep (e : Enemy) (timing : LegTiming) : Enemy :=
  match e.route.bind (·[e.nextStep]?) with
  | none => e.exitStage timing
  | some step =>
    { e with
      nextStep := e.nextStep + 1
      waitToFire := step.waitToFire
      burstsLeft := if 0 < step.fireBursts then some step.fireBursts else none
      holdingFire := false
      rearm := e.rearm || e.holdingFire }.startMove step.target step.beats e.mirrored timing

/-- Enters at the top and sets out on the first leg. -/
def spawn (e : Enemy) (s : EnemySpawn) (timing : LegTiming) : Enemy :=
  let entry : Vec2 := ⟨s.lane, Playfield.entryHeight⟩
  let e :=
    { e with
      archetype := s.id
      position := entry
      health := s.archetype.health
      mirrored := s.mirrored
      exempt := s.exempt
      xCurve := s.archetype.xCurve
      yCurve := s.archetype.yCurve
      emitters :=
        (s.archetype.emitters.take e.maxEmitters).map (Emitter.ofSpec e.maxDepth s.mirrored)
      firing := false
      burstsLeft := none
      holdingFire := false
      rearm := false
      waitToFire := false
      beatsToGo := 0
      destination := entry
      destinationTime := timing.now
      legDuration := 0
      exiting := false }
  match s.route with
  | some route => { e with route := some route.steps, nextStep := route.start }.takeStep timing
  | none => { e with route := none }.exitStage timing

/-- Hears a beat. It counts for the leg unless the enemy is leaving, or waits on this leg for a
burst to end. The lowest countdown of 32 bits goes on at the highest. -/
def onBeat (e : Enemy) (timing : LegTiming) : Enemy :=
  let e := { e with emitters := e.emitters.map Emitter.onBeat }
  if e.exiting || (e.waitToFire && e.firing) then e
  else
    let e := { e with beatsToGo := Int.bmod (e.beatsToGo - 1) 0x100000000 }
    if 0 < e.beatsToGo then e else e.takeStep timing

/-- Makes up for time lost in a pause. -/
def onUnpause (e : Enemy) (lost : Float) : Enemy :=
  { e with destinationTime := e.destinationTime + lost }

/-! ### Motion and fire -/

/-- The point of the leg at a time before its end. Each coordinate follows its own curve. -/
def pointOnLeg (e : Enemy) (now : Float) : Vec2 :=
  let left := ((e.destinationTime - now) / e.legDuration).toFloat32
  let tx := e.xCurve.evaluate (1 - left)
  let ty := e.yCurve.evaluate (1 - left)
  ⟨e.start.x + (e.destination.x - e.start.x) * tx,
    e.start.y + (e.destination.y - e.start.y) * ty⟩

section Fire

variable {σ : Type} [FireContext σ]

/-- Restarts all emitters. -/
def startBurst (e : Enemy) (ctx : σ) : Enemy × σ :=
  let (running, emitters, ctx) := Emitter.restartAll e.emitters e.position ctx
  ({ e with emitters := emitters, firing := running }, ctx)

/-- What follows when a burst has ended: the next one, or holding fire if that was the last of
this leg. -/
def endBurst (e : Enemy) (ctx : σ) : Enemy × σ :=
  let e := { e with firing := false }
  match e.burstsLeft with
  | none => e.startBurst ctx
  | some left =>
    let e := { e with burstsLeft := some (left - 1) }
    if left - 1 = 0 then ({ e with holdingFire := true }, ctx) else e.startBurst ctx

/-- Runs the emitters for one tick. -/
def runEmitters (e : Enemy) (ctx : σ) : Enemy × σ :=
  if e.rearm then { e with rearm := false }.startBurst ctx
  else
    let (running, emitters, ctx) := Emitter.tickAll e.emitters e.position ctx
    let e := { e with emitters := emitters }
    if running then ({ e with firing := true }, ctx) else e.endBurst ctx

/-- One tick. It answers `false` once the enemy has finished its last leg or left the playfield.
Below the cutoff height, and while fire is held, the emitters stand still. -/
def tick (e : Enemy) (now : Float) (cutoff : Float32) (ctx : σ) : Bool × Enemy × σ :=
  let underway := now < e.destinationTime
  let e := { e with position := if underway then e.pointOnLeg now else e.destination }
  if (!underway && e.exiting) || outOfBounds e.position Playfield.retireMargin then (false, e, ctx)
  else if e.position.y < cutoff || e.holdingFire then (true, e, ctx)
  else
    let (e, ctx) := e.runEmitters ctx
    (true, e, ctx)

/-- The shot that an emitter of a killed enemy fires, aimed and without spread. -/
def revengeRequest (e : Enemy) (emitter : Emitter) (ctx : σ) : ShotRequest :=
  let origin := emitter.origin e.position
  ⟨origin, wrapAngle (FireContext.angleToTarget ctx origin), emitter.shot, emitter.damage⟩

/-- One aimed shot from every emitter. -/
def fireRevenge (e : Enemy) (ctx : σ) : σ :=
  e.emitters.foldl
    (fun ctx emitter => (FireContext.spawnShot ctx (e.revengeRequest emitter ctx)).2) ctx

end Fire

/-! ### Damage -/

/-- Takes damage; `true` if that is the end. -/
def takeDamage (e : Enemy) (damage : Float32) : Bool × Enemy :=
  let health := e.health - damage
  (health ≤ 0, { e with health := health })

end Enemy

end BulletHell
