import BulletHell.Geometry.Vector

/-!
# The playfield

The rectangle in which a game takes place, centred on the origin, and the margin around it
beyond which an object is gone for good.
-/

namespace BulletHell

namespace Playfield

def halfWidth : Float32 := 3.5

def halfHeight : Float32 := 3.5

/-- Objects further than this beyond the edge are retired. -/
def retireMargin : Float32 := 1

/-- The height at which new enemies and powerups appear. -/
def entryHeight : Float32 := halfHeight + 1

end Playfield

/-- Is the point outside the playfield widened by `margin`? -/
def outOfBounds (p : Vec2) (margin : Float32) : Bool :=
  Playfield.halfWidth + margin < p.x.abs || Playfield.halfHeight + margin < p.y.abs

/-- Clamps a number. What is not a number stays what it is, and so does minus zero. -/
def clamp (lo hi x : Float32) : Float32 :=
  if x < lo then lo else if hi < x then hi else x

end BulletHell
