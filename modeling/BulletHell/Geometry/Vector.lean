/-!
# Plane vectors

Vectors of single-precision numbers. Every operation is a fixed expression in single
precision, evaluated in the order written and without contraction, so that equal inputs give
equal bits everywhere.
-/

namespace BulletHell

/-- A point or a displacement in playfield units; `y` grows upward. -/
structure Vec2 where
  x : Float32
  y : Float32

namespace Vec2

def zero : Vec2 := ⟨0, 0⟩

instance : Inhabited Vec2 := ⟨zero⟩

instance : Add Vec2 := ⟨fun a b => ⟨a.x + b.x, a.y + b.y⟩⟩

instance : Sub Vec2 := ⟨fun a b => ⟨a.x - b.x, a.y - b.y⟩⟩

instance : HMul Vec2 Float32 Vec2 := ⟨fun a s => ⟨a.x * s, a.y * s⟩⟩

def dot (a b : Vec2) : Float32 :=
  a.x * b.x + a.y * b.y

def lengthSquared (a : Vec2) : Float32 :=
  a.dot a

def distanceSquared (a b : Vec2) : Float32 :=
  (a - b).lengthSquared

/-- The vector scaled to length one, or zero where its length has no finite positive
reciprocal. -/
def normalizeOrZero (a : Vec2) : Vec2 :=
  let r := 1 / (a.dot a).sqrt
  if r.isFinite && 0 < r then a * r else zero

end Vec2

end BulletHell
