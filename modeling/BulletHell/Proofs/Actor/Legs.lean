import BulletHell.Proofs.Actor.Contexts

/-!
# Legs

An enemy goes from leg to leg: it takes a step of its route, or the way out when no step is left,
and sets out for the target with a countdown of beats. A beat that counts takes one off, and the
beat that leaves none takes the next step. Between beats nothing of this is touched; ticks move
the enemy along the leg and work its emitters.

## Main definitions

* `Enemy.Bearing` — where an enemy is bound, and how long it has to go
* `Enemy.Trigger` — what an enemy remembers of its bursts
* `Enemy.setOut`, `Enemy.onStep`, `Enemy.onExit` — the parts of taking a step
* `Enemy.countBeat`, `Enemy.deafToBeats` — the parts of hearing a beat
* `Enemy.entered` — an enemy that comes on screen, before its first step

## Main results

* `Enemy.takeStep_some`, `Enemy.takeStep_none`, `Enemy.onBeat_eq`, `Enemy.spawn_eq` — how they are
  put together
* `Enemy.tick_bearing` — a tick leaves the bearing alone
-/

namespace BulletHell

/-- The room for emitters and for open loops. -/
def Enemy.limits (e : Enemy) : Nat × Nat :=
  (e.maxEmitters, e.maxDepth)

/-- Where an enemy is bound, and how long it has to go. -/
structure Enemy.Bearing where
  limits : Nat × Nat
  mirrored : Bool
  route : Option (List RouteStep)
  nextStep : Nat
  beatsToGo : Int
  destination : Vec2
  waitToFire : Bool
  exiting : Bool

namespace Enemy

/-- What an enemy keeps between beats. -/
def bearing (e : Enemy) : Bearing where
  limits := e.limits
  mirrored := e.mirrored
  route := e.route
  nextStep := e.nextStep
  beatsToGo := e.beatsToGo
  destination := e.destination
  waitToFire := e.waitToFire
  exiting := e.exiting

/-- What an enemy remembers of its bursts. -/
structure Trigger where
  firing : Bool
  burstsLeft : Option Nat
  holdingFire : Bool
  rearm : Bool

def trigger (e : Enemy) : Trigger where
  firing := e.firing
  burstsLeft := e.burstsLeft
  holdingFire := e.holdingFire
  rearm := e.rearm

/-! ### Setting out -/

/-- Sets out for a target with a given countdown. -/
def setOut (e : Enemy) (target : Vec2) (count : Int) (beats : Nat) (timing : LegTiming) : Enemy :=
  let e := { e with beatsToGo := count, destination := target }
  if beats = 0 then { e with position := target, destinationTime := timing.now }
  else
    let duration := doubleOfInt beats * timing.beatLength
    { e with start := e.position, legDuration := duration,
             destinationTime := timing.now + duration }

theorem startMove_eq (e : Enemy) (target : Vec2) (beats : Nat) (mirrored : Bool)
    (timing : LegTiming) :
    e.startMove target beats mirrored timing =
      e.setOut (if mirrored then ⟨-target.x, target.y⟩ else target) (Int.bmod beats 0x100000000)
        beats timing := by
  rfl

section SetOut

variable (e : Enemy) (target : Vec2) (count : Int) (beats : Nat) (timing : LegTiming)

/-- Only the target and the countdown are new. -/
theorem setOut_bearing :
    (e.setOut target count beats timing).bearing =
      { e.bearing with beatsToGo := count, destination := target } := by
  rw [setOut]
  dsimp only
  split <;> rfl

/-- Bursts do not matter for it. -/
theorem setOut_trigger : (e.setOut target count beats timing).trigger = e.trigger := by
  rw [setOut]
  dsimp only
  split <;> rfl

end SetOut

/-- On the way to a step of the route, but for the leg itself. -/
def onStep (e : Enemy) (step : RouteStep) : Enemy :=
  { e with
    nextStep := e.nextStep + 1
    waitToFire := step.waitToFire
    burstsLeft := if 0 < step.fireBursts then some step.fireBursts else none
    holdingFire := false
    rearm := e.rearm || e.holdingFire }

/-- On the way out, but for the leg itself. -/
def onExit (e : Enemy) : Enemy :=
  { e with exiting := true }

theorem takeStep_none {e : Enemy} (h : e.route.bind (·[e.nextStep]?) = none)
    (timing : LegTiming) :
    e.takeStep timing =
      e.onExit.setOut ⟨e.position.x, -Playfield.entryHeight⟩
        (Int.bmod timing.exitBeats 0x100000000) timing.exitBeats timing := by
  rw [takeStep, h]
  rfl

theorem takeStep_some {e : Enemy} {step : RouteStep}
    (h : e.route.bind (·[e.nextStep]?) = some step) (timing : LegTiming) :
    e.takeStep timing =
      (e.onStep step).setOut
        (if e.mirrored then ⟨-step.target.x, step.target.y⟩ else step.target)
        (Int.bmod step.beats 0x100000000) step.beats timing := by
  rw [takeStep, h]
  exact startMove_eq _ _ _ _ _

/-- An enemy stays what it is, and on its route. -/
theorem exists_takeStep_bearing (e : Enemy) (timing : LegTiming) :
    ∃ nextStep beatsToGo destination waitToFire exiting,
      (e.takeStep timing).bearing =
        { e.bearing with nextStep := nextStep, beatsToGo := beatsToGo, destination := destination,
                         waitToFire := waitToFire, exiting := exiting } := by
  cases hstep : e.route.bind (·[e.nextStep]?) with
  | none =>
    rw [takeStep_none hstep, setOut_bearing]
    exact ⟨_, _, _, _, _, rfl⟩
  | some step =>
    rw [takeStep_some hstep, setOut_bearing]
    exact ⟨_, _, _, _, _, rfl⟩

theorem takeStep_limits (e : Enemy) (timing : LegTiming) :
    (e.takeStep timing).limits = e.limits := by
  obtain ⟨_, _, _, _, _, hbearing⟩ := e.exists_takeStep_bearing timing
  exact congrArg Bearing.limits hbearing

theorem takeStep_route (e : Enemy) (timing : LegTiming) :
    (e.takeStep timing).route = e.route := by
  obtain ⟨_, _, _, _, _, hbearing⟩ := e.exists_takeStep_bearing timing
  exact congrArg Bearing.route hbearing

theorem takeStep_mirrored (e : Enemy) (timing : LegTiming) :
    (e.takeStep timing).mirrored = e.mirrored := by
  obtain ⟨_, _, _, _, _, hbearing⟩ := e.exists_takeStep_bearing timing
  exact congrArg Bearing.mirrored hbearing

/-- A step of the route: the bursts begin anew, and held fire is released. -/
def Trigger.onStep (g : Trigger) (step : RouteStep) : Trigger where
  firing := g.firing
  burstsLeft := if 0 < step.fireBursts then some step.fireBursts else none
  holdingFire := false
  rearm := g.rearm || g.holdingFire

/-- Where no step is left, nothing changes. -/
theorem takeStep_trigger (e : Enemy) (timing : LegTiming) :
    (e.takeStep timing).trigger =
      (e.route.bind (·[e.nextStep]?)).elim e.trigger e.trigger.onStep := by
  cases hstep : e.route.bind (·[e.nextStep]?) with
  | none =>
    rw [takeStep_none hstep, setOut_trigger]
    rfl
  | some step =>
    rw [takeStep_some hstep, setOut_trigger]
    rfl

theorem takeStep_firing (e : Enemy) (timing : LegTiming) :
    (e.takeStep timing).firing = e.firing := by
  show (e.takeStep timing).trigger.firing = e.firing
  rw [takeStep_trigger]
  cases e.route.bind (·[e.nextStep]?) with
  | none => rfl
  | some step => rfl

/-! ### Beats -/

/-- The emitters hear a beat. -/
def emittersHear (e : Enemy) : Enemy :=
  { e with emitters := e.emitters.map Emitter.onBeat }

/-- A beat less to go. The countdown has 32 bits. -/
def countBeat (e : Enemy) : Enemy :=
  { e with beatsToGo := Int.bmod (e.beatsToGo - 1) 0x100000000 }

/-- Any countdown but the lowest is one less after it. -/
theorem countBeat_beatsToGo {e : Enemy} (hlow : -0x80000000 < e.beatsToGo)
    (hhigh : e.beatsToGo ≤ 0x80000000) : e.countBeat.beatsToGo = e.beatsToGo - 1 :=
  Int.bmod_eq_of_le (by omega) (by omega)

/-- No countdown is the same after it. -/
theorem countBeat_beatsToGo_ne (e : Enemy) : e.countBeat.beatsToGo ≠ e.beatsToGo := by
  intro hsame
  have hmod : e.countBeat.beatsToGo % (0x100000000 : Nat) =
      (e.beatsToGo - 1) % (0x100000000 : Nat) := Int.bmod_emod
  rw [hsame] at hmod
  omega

/-- The beat does not count for the leg. -/
def deafToBeats (e : Enemy) : Bool :=
  e.exiting || (e.waitToFire && e.firing)

theorem onBeat_eq (e : Enemy) (timing : LegTiming) :
    e.onBeat timing =
      if e.deafToBeats then e.emittersHear
      else if 0 < e.countBeat.beatsToGo then e.emittersHear.countBeat
      else e.emittersHear.countBeat.takeStep timing :=
  rfl

/-! ### Coming on screen -/

/-- The enemy that comes on screen, before it sets out. -/
def entered (e : Enemy) (s : EnemySpawn) (timing : LegTiming) : Enemy :=
  { e with
    archetype := s.id
    position := ⟨s.lane, Playfield.entryHeight⟩
    health := s.archetype.health
    mirrored := s.mirrored
    exempt := s.exempt
    xCurve := s.archetype.xCurve
    yCurve := s.archetype.yCurve
    emitters := (s.archetype.emitters.take e.maxEmitters).map (Emitter.ofSpec e.maxDepth s.mirrored)
    firing := false
    burstsLeft := none
    holdingFire := false
    rearm := false
    waitToFire := false
    route := s.route.map (·.steps)
    nextStep := (s.route.map (·.start)).getD e.nextStep
    beatsToGo := 0
    destination := ⟨s.lane, Playfield.entryHeight⟩
    destinationTime := timing.now
    legDuration := 0
    exiting := false }

theorem spawn_eq (e : Enemy) (s : EnemySpawn) (timing : LegTiming) :
    e.spawn s timing = (e.entered s timing).takeStep timing := by
  cases hroute : s.route with
  | none =>
    simp only [Enemy.spawn, entered, Enemy.takeStep, hroute, Option.map_none, Option.bind_none]
    rfl
  | some route =>
    simp only [Enemy.spawn, entered, hroute]
    rfl

/-! ### Between beats -/

theorem onUnpause_bearing (e : Enemy) (lost : Float) : (e.onUnpause lost).bearing = e.bearing :=
  rfl

theorem takeDamage_bearing (e : Enemy) (damage : Float32) :
    (e.takeDamage damage).2.bearing = e.bearing :=
  rfl

section Fire

variable {σ : Type} [FireContext σ]

theorem startBurst_eq (e : Enemy) (ctx : σ) :
    e.startBurst ctx =
      ({ e with
        emitters := (Emitter.restartAll e.emitters e.position ctx).2.1
        firing := (Emitter.restartAll e.emitters e.position ctx).1 },
        (Emitter.restartAll e.emitters e.position ctx).2.2) :=
  rfl

theorem endBurst_none {e : Enemy} (h : e.burstsLeft = none) (ctx : σ) :
    e.endBurst ctx = { e with firing := false }.startBurst ctx := by
  simp only [endBurst, h]

theorem endBurst_some {e : Enemy} {left : Nat} (h : e.burstsLeft = some left) (ctx : σ) :
    e.endBurst ctx =
      if left - 1 = 0 then
        ({ e with firing := false, burstsLeft := some (left - 1), holdingFire := true }, ctx)
      else { e with firing := false, burstsLeft := some (left - 1) }.startBurst ctx := by
  simp only [endBurst, h]

theorem runEmitters_eq (e : Enemy) (ctx : σ) :
    e.runEmitters ctx =
      if e.rearm then { e with rearm := false }.startBurst ctx
      else if (Emitter.tickAll e.emitters e.position ctx).1 then
        ({ e with emitters := (Emitter.tickAll e.emitters e.position ctx).2.1, firing := true },
          (Emitter.tickAll e.emitters e.position ctx).2.2)
      else
        { e with emitters := (Emitter.tickAll e.emitters e.position ctx).2.1 }.endBurst
          (Emitter.tickAll e.emitters e.position ctx).2.2 :=
  rfl

theorem startBurst_bearing (e : Enemy) (ctx : σ) :
    (e.startBurst ctx).1.bearing = e.bearing := by
  rw [startBurst_eq]
  rfl

theorem endBurst_bearing (e : Enemy) (ctx : σ) : (e.endBurst ctx).1.bearing = e.bearing := by
  cases hleft : e.burstsLeft with
  | none =>
    rw [endBurst_none hleft, startBurst_bearing]
    rfl
  | some left =>
    rw [endBurst_some hleft]
    split
    · rfl
    · rw [startBurst_bearing]
      rfl

theorem runEmitters_bearing (e : Enemy) (ctx : σ) :
    (e.runEmitters ctx).1.bearing = e.bearing := by
  rw [runEmitters_eq]
  split
  · rw [startBurst_bearing]
    rfl
  · split
    · rfl
    · rw [endBurst_bearing]
      rfl

/-- **Between beats** an enemy stays on its leg. -/
theorem tick_bearing (e : Enemy) (now : Float) (cutoff : Float32) (ctx : σ) :
    (e.tick now cutoff ctx).2.1.bearing = e.bearing := by
  rw [tick_eq]
  split
  · rfl
  · split
    · rfl
    · exact runEmitters_bearing (e.moved now) ctx

end Fire

end Enemy

end BulletHell
