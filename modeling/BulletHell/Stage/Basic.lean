import BulletHell.Clock.Time
import BulletHell.Geometry.Vector

/-!
# Stages

A stage is a piece of music with a spawn table: which enemy or powerup appears on which beat,
where, and on which route. The table is sorted by beat.

## Main definitions

* `RouteStep`, `RouteRef` — a route and where to join it.
* `SpawnCondition` — the gate in front of a spawn.
* `SpawnEvent`, `Stage` — the table and its music.

## Implementation notes

A stage carries its tempo as a clock reading `τ`, so that the scheduler can be run on doubles
and on exact numbers alike.
-/

namespace BulletHell

/-- An enemy archetype, by its place in the catalog. -/
structure EnemyId where
  index : Nat
deriving DecidableEq, Repr

/-- One leg of a route. -/
structure RouteStep where
  /-- Where the leg ends; `x` is negated for mirrored spawns. -/
  target : Vec2
  /-- Beats the leg takes; a leg of no beats is a jump. -/
  beats : Nat
  /-- Bursts fired on this leg before fire is held; zero never holds it. -/
  fireBursts : Nat := 0
  /-- Beats do not count on this leg while a burst is running. -/
  waitToFire : Bool := false

/-- A route, and the step at which to join it. -/
structure RouteRef where
  steps : List RouteStep
  start : Nat

/-- The gate in front of a spawn that has come due. -/
inductive SpawnCondition where
  | none
  /-- Only when no counted enemy is alive. -/
  | noEnemiesPresent
  /-- As the previous entry of the table was decided. -/
  | carryOver
deriving DecidableEq, Repr

/-- Does the gate open, given the counted enemies and the previous decision? -/
def SpawnCondition.permits (condition : SpawnCondition) (counted : Nat) (previous : Bool) :
    Bool :=
  match condition with
  | .none => true
  | .noEnemiesPresent => counted == 0
  | .carryOver => previous

/-- What a spawn brings. -/
inductive SpawnTarget where
  | enemy (id : EnemyId)
  | powerup
deriving DecidableEq, Repr

/-- An entry of the spawn table. -/
structure SpawnEvent where
  /-- Beats since the stage began. -/
  beat : Int
  /-- The horizontal place. -/
  lane : Float32
  target : SpawnTarget
  condition : SpawnCondition
  /-- Not counted by `noEnemiesPresent`. -/
  exempt : Bool
  route : Option RouteRef
  mirrored : Bool

/-- A stage ready to play. -/
structure Stage (τ : Type) where
  name : String
  track : String
  /-- Beats per minute. -/
  bpm : τ
  background : String
  scrollSpeed : Float32
  spawns : List SpawnEvent

/-- Seconds per beat. -/
def Stage.beatLength {τ : Type} [ClockTime τ] (s : Stage τ) : τ :=
  ClockTime.ofInt 60 / s.bpm

end BulletHell
