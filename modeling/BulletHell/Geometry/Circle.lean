import BulletHell.Geometry.Vector

/-!
# Circles and their overlap

Collision shapes are circles placed relative to their owner. Two circles overlap when the
squared distance of their centres is below the square of the summed radii; touching from
outside is no overlap.
-/

namespace BulletHell

/-- A circle relative to its owner. -/
structure Circle where
  offset : Vec2 := Vec2.zero
  radius : Float32

/-- Do two circles overlap? -/
def circlesOverlap (a : Vec2) (ra : Float32) (b : Vec2) (rb : Float32) : Bool :=
  let r := ra + rb
  a.distanceSquared b < r * r

namespace Circle

/-- The centre, for an owner at a given place. -/
def center (c : Circle) (owner : Vec2) : Vec2 :=
  owner + c.offset

/-- Does the circle of an owner overlap the circle around `p`? -/
def overlaps (c : Circle) (owner p : Vec2) (radius : Float32) : Bool :=
  circlesOverlap (c.center owner) c.radius p radius

end Circle

/-- Does any circle of an owner overlap the circle around `p`? -/
def anyOverlap (boxes : List Circle) (owner p : Vec2) (radius : Float32) : Bool :=
  boxes.any fun box => box.overlaps owner p radius

end BulletHell
