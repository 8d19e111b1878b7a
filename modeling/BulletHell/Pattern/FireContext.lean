import BulletHell.Geometry.Vector
import BulletHell.Pattern.Instruction

/-!
# What an emitter needs from its surroundings

An emitter does not know the world it fires into. It asks three questions: where its target
is, which random angle to use, and whether there is room for one more shot. Asking for a
random angle or a shot changes the surroundings, so the answers come with a new context.
-/

namespace BulletHell

/-- A shot that an emitter wants. -/
structure ShotRequest where
  origin : Vec2
  angle : Int
  shot : ShotId
  damage : Float32

/-- The surroundings of a running emitter. -/
class FireContext (σ : Type) where
  /-- The angle from straight down to the target, seen from a point. -/
  angleToTarget : σ → Vec2 → Int
  /-- A random integer of at most the given magnitude. -/
  randomSpread : σ → Int → Int × σ
  /-- Asks for a shot; `false` when there is no room for it. -/
  spawnShot : σ → ShotRequest → Bool × σ

end BulletHell
