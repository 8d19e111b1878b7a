import BulletHell.Geometry.Playfield

/-!
# Easing curves

A curve maps normalized time to a normalized value. Enemy legs and powerup falls sample one
per coordinate.
-/

namespace BulletHell

inductive Curve where
  | linear
  | easeIn
  | easeOut
  /-- Zero slope at both ends. -/
  | easeInOut
  /-- One value at all times. -/
  | constant (value : Float32)

namespace Curve

/-- The value at time `t`, which is clamped to `[0, 1]` first. -/
def evaluate (curve : Curve) (t : Float32) : Float32 :=
  let t := clamp 0 1 t
  match curve with
  | linear => t
  | easeIn => t * t
  | easeOut => t * (2 - t)
  | easeInOut => t * t * (3 - 2 * t)
  | constant value => value

end Curve

end BulletHell
