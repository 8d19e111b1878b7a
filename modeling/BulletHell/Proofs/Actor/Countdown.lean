import BulletHell.Proofs.Actor.Legs

/-!
# The countdown of a leg

A leg of a route is counted down by the beats that the enemy hears, and the beat that leaves none
takes the next step. Where an enemy is on its route is said by its bearing alone, so nothing of it
changes between beats.

A countdown that begins at the number of beats of its leg lasts as many beats as the leg has. One
that begins before a beat which the enemy still hears is over a beat sooner.

## Main definitions

* `Enemy.Bearing.OnLeg` — on the way to a step of the route, with some beats left
* `Enemy.Bearing.Begins` — at the beginning of a step, or of the way out behind the last one
* `Enemy.waits` — beats do not count while a burst is running

## Main results

* `Enemy.begins_spawn` — an enemy enters at the beginning of a step
* `Enemy.onBeat_of_lt`, `Enemy.onBeat_of_le` — one beat
-/

namespace BulletHell

namespace Enemy

namespace Bearing

/-- Where a step leads. -/
def aim (b : Bearing) (step : RouteStep) : Vec2 :=
  if b.mirrored then ⟨-step.target.x, step.target.y⟩ else step.target

/-- On the way to a step of the route, with some beats left of the leg. -/
structure OnLeg (steps : List RouteStep) (place : Nat) (left : Int) (b : Bearing) : Prop where
  route : b.route = some steps
  nextStep : b.nextStep = place + 1
  bound : ∃ step, steps[place]? = some step ∧ b.destination = b.aim step ∧
    b.waitToFire = step.waitToFire
  beatsToGo : b.beatsToGo = left
  exiting : b.exiting = false

/-- At the beginning of a step of the route, with the full countdown of its leg, or of the way out
if the route has no such step. The countdown has 32 bits. -/
inductive Begins (steps : List RouteStep) (place : Nat) (b : Bearing) : Prop where
  | leg {step : RouteStep} (hstep : steps[place]? = some step)
      (h : OnLeg steps place (Int.bmod step.beats 0x100000000) b) : Begins steps place b
  | exit (hstep : steps[place]? = none) (h : b.exiting = true) : Begins steps place b

/-- Legs of up to some two billion beats have their countdown in full. -/
theorem Begins.onLeg {steps : List RouteStep} {place : Nat} {b : Bearing} {step : RouteStep}
    (h : Begins steps place b) (hstep : steps[place]? = some step)
    (hbeats : step.beats < 0x80000000) : OnLeg steps place step.beats b := by
  cases h with
  | leg hstep' h =>
    obtain rfl := Option.some.inj (hstep.symm.trans hstep')
    have hcount : Int.bmod step.beats 0x100000000 = step.beats :=
      Int.bmod_eq_of_le (by omega) (by omega)
    rwa [hcount] at h
  | exit hstep' => cases hstep'.symm.trans hstep

end Bearing

variable {steps : List RouteStep} {place : Nat} {left : Int} {e : Enemy}

/-- Waiting on this leg for a burst to end. -/
def waits (e : Enemy) : Bool :=
  e.waitToFire && e.firing

/-- Taking a step is its beginning. -/
theorem begins_takeStep (hroute : e.route = some steps) (hnext : e.nextStep = place)
    (hexiting : e.exiting = false) (timing : LegTiming) :
    (e.takeStep timing).bearing.Begins steps place := by
  subst hnext
  cases hstep : steps[e.nextStep]? with
  | none =>
    have hnone : e.route.bind (·[e.nextStep]?) = none := by rw [hroute, Option.bind_some, hstep]
    rw [takeStep_none hnone, setOut_bearing]
    exact .exit hstep rfl
  | some step =>
    have hsome : e.route.bind (·[e.nextStep]?) = some step := by
      rw [hroute, Option.bind_some, hstep]
    rw [takeStep_some hsome, setOut_bearing]
    refine .leg hstep ⟨hroute, rfl, ⟨step, hstep, rfl, rfl⟩, ?_, hexiting⟩
    dsimp only

/-- **An enemy enters** at the beginning of the step at which it joins its route. -/
theorem begins_spawn (e : Enemy) {s : EnemySpawn} (hroute : s.route = some ⟨steps, place⟩)
    (timing : LegTiming) : (e.spawn s timing).bearing.Begins steps place := by
  rw [spawn_eq]
  refine begins_takeStep ?_ ?_ rfl timing
  · rw [entered, hroute]
    rfl
  · rw [entered, hroute]
    rfl

/-- It is not firing then, so it waits for no burst. -/
theorem waits_spawn (e : Enemy) (s : EnemySpawn) (timing : LegTiming) :
    (e.spawn s timing).waits = false := by
  rw [waits, spawn_eq, takeStep_firing]
  exact Bool.and_false _

/-! ### Beats -/

theorem deafToBeats_eq (h : e.exiting = false) : e.deafToBeats = e.waits := by
  rw [deafToBeats, h, Bool.false_or]
  rfl

/-- On a leg no countdown but the lowest wraps around. -/
theorem countBeat_of_onLeg (h : e.bearing.OnLeg steps place left) (hlow : -0x80000000 < left)
    (hhigh : left ≤ 0x80000000) : e.countBeat.beatsToGo = left - 1 := by
  have hgo : e.beatsToGo = left := h.beatsToGo
  rw [countBeat_beatsToGo (hgo ▸ hlow) (hgo ▸ hhigh), hgo]

/-- **A beat** takes one off the countdown. -/
theorem onBeat_of_lt (h : e.bearing.OnLeg steps place left) (hfree : e.waits = false)
    (hleft : 1 < left) (hhigh : left ≤ 0x80000000) (timing : LegTiming) :
    (e.onBeat timing).bearing.OnLeg steps place (left - 1) := by
  have hcount : e.countBeat.beatsToGo = left - 1 := countBeat_of_onLeg h (by omega) hhigh
  rw [onBeat_eq, deafToBeats_eq h.exiting, hfree, if_neg Bool.false_ne_true, hcount,
    if_pos (by omega)]
  exact ⟨h.route, h.nextStep, h.bound, hcount, h.exiting⟩

/-- **The beat that leaves none** takes the next step. -/
theorem onBeat_of_le (h : e.bearing.OnLeg steps place left) (hfree : e.waits = false)
    (hleft : left ≤ 1) (hlow : -0x80000000 < left) (timing : LegTiming) :
    (e.onBeat timing).bearing.Begins steps (place + 1) := by
  rw [onBeat_eq, deafToBeats_eq h.exiting, hfree, if_neg Bool.false_ne_true,
    countBeat_of_onLeg h hlow (by omega), if_neg (by omega)]
  exact begins_takeStep (e := e.emittersHear.countBeat) h.route h.nextStep h.exiting timing

end Enemy

end BulletHell
