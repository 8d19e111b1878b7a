import BulletHell.Geometry.Vector
import BulletHell.Pool

/-!
# Cosmetic effects

Effects show what happened and change nothing. They have a pool of their own, so that a burst
of kills cannot use up the slots of anything that matters.
-/

namespace BulletHell

inductive EffectKind where
  | kill
  | shieldHit
  | hurtHit
  | pickup
  | playerHit
  | bomb
deriving DecidableEq, Repr

structure Effect where
  kind : EffectKind
  position : Vec2
  /-- Seconds left. -/
  timeLeft : Float32

namespace Effect

/-- A slot that no effect has used yet. -/
def blank : Effect where
  kind := .kill
  position := Vec2.zero
  timeLeft := 0

/-- Lets time pass. The answer is whether any is left. -/
def tick (e : Effect) (dt : Float32) : Bool × Effect :=
  let timeLeft := e.timeLeft - dt
  (0 < timeLeft, { e with timeLeft := timeLeft })

end Effect

end BulletHell
