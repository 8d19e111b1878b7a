import BulletHell.Actor.Shot
import BulletHell.Random
import BulletHell.World.Event

/-!
# Fire control

The fire context of the world. Emitters of enemies and of the player fire through it: it knows
the target, draws random angles from the world's generator, puts shots into their pools and
announces them.
-/

namespace BulletHell

structure FireControl where
  /-- The point to aim at, if there is one. -/
  target : Option Vec2
  /-- The angle to aim at otherwise. -/
  fallbackAngle : Int
  archetypes : List ShotArchetype
  shots : ShotPools
  rng : Pcg32
  events : Array GameEvent
  tick : Nat

namespace FireControl

def angleToTarget (f : FireControl) (origin : Vec2) : Int :=
  match f.target with
  | some target => signedAngleFromDown (target - origin)
  | none => f.fallbackAngle

/-- A random angle. The spread counts by its magnitude, which is clamped to 31 bits. -/
def randomSpread (f : FireControl) (spread : Int) : Int × FireControl :=
  let (angle, rng) := f.rng.uniform (min spread.natAbs 0x7fffffff)
  (angle, { f with rng := rng })

/-- Fires a shot and announces it; a full pool drops it without a word. -/
def spawnShot (f : FireControl) (request : ShotRequest) : Bool × FireControl :=
  match f.archetypes[request.shot.index]? with
  | none => (false, f)
  | some archetype =>
    match f.shots.spawn? request archetype f.tick with
    | none => (false, f)
    | some shots =>
      (true,
        { f with
          shots := shots
          events := f.events.push (.shotFired request.shot request.origin request.angle) })

instance : FireContext FireControl where
  angleToTarget := angleToTarget
  randomSpread := randomSpread
  spawnShot := spawnShot

end FireControl

end BulletHell
