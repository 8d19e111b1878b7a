import BulletHell.Geometry.Vector
import BulletHell.Number.Decimal

/-!
# Directions as whole degrees

Angles are whole degrees from straight down, counterclockwise positive. Programs add and
mirror them, so they are integers; trigonometry happens only where an angle meets a point.

## Main definitions

* `wrapAngle` — folds any angle into `[-180, 180]`.
* `signedAngleFromDown` — the angle of a vector.
* `directionFromAngle` — the unit vector of an angle.
* `saturate` — clamps an angle sum to 32 bits.
-/

namespace BulletHell

/-- Folds an angle into `[-180, 180]`.

This is not reduction modulo 360. An angle above 180 folds to `a % 180 - 180` and one below
-180 to `180 - (-a) % 180`, so larger angles may come out reversed and the multiples of 360
above 180 come out as -180. -/
def wrapAngle (angle : Int) : Int :=
  if angle < -180 then 180 - (-angle) % 180
  else if 180 < angle then angle % 180 - 180
  else angle

/-- The least angle that a program can name or reach by addition. -/
def minAngle : Int := -0x80000000

/-- The greatest angle that a program can name or reach by addition. -/
def maxAngle : Int := 0x7fffffff

/-- Clamps an integer to 32 bits. -/
def saturate (n : Int) : Int :=
  max minAngle (min maxAngle n)

/-- The factor from degrees to radians in single precision. -/
def radiansPerDegree : Float32 := Float32.ofBits 0x3c8efa35

/-- The factor from radians to degrees in single precision. -/
def degreesPerRadian : Float32 := Float32.ofBits 0x42652ee1

/-- Vectors with a smaller squared length have no direction. -/
def directionThreshold : Float32 := Float32.ofBits 0x34000000

/-- The angle of a vector, truncated to whole degrees; zero for a vector too short to have
one. Straight down is `(0, -1)`, so the sine goes with `x` and the cosine with `-y`. -/
def signedAngleFromDown (v : Vec2) : Int :=
  if v.lengthSquared < directionThreshold then 0
  else truncate minAngle maxAngle (Float32.atan2 v.x (-v.y) * degreesPerRadian)

/-- The unit vector of an angle. -/
def directionFromAngle (degrees : Int) : Vec2 :=
  let radians := singleOfInt degrees * radiansPerDegree
  ⟨radians.sin, -radians.cos⟩

end BulletHell
