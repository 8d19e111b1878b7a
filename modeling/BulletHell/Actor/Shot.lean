import BulletHell.Geometry.Angle
import BulletHell.Geometry.Playfield
import BulletHell.Pattern.FireContext
import BulletHell.Pool

/-!
# Shots

Shots fly straight until they leave the playfield or hit something. They are kept in three
pools by whom they can hurt. A shot waits out the tick it was born on: it neither moves nor
collides before the next one.
-/

namespace BulletHell

/-- Whom a shot can hurt. -/
inductive ShotTarget where
  | player
  | enemy
  | both
deriving DecidableEq, Repr

/-- What shots of one kind have in common. -/
structure ShotArchetype where
  name : String
  target : ShotTarget
  /-- Units per second. -/
  speed : Float32 := 5
  radius : Float32 := 0.08

/-- A shot in flight. -/
structure Shot where
  archetype : ShotId
  position : Vec2
  velocity : Vec2
  radius : Float32
  damage : Float32
  angle : Int
  /-- The tick on which it was fired. -/
  bornTick : Nat

namespace Shot

/-- A slot that no shot has used yet. -/
def blank : Shot where
  archetype := ⟨0⟩
  position := Vec2.zero
  velocity := Vec2.zero
  radius := 0
  damage := 0
  angle := 0
  bornTick := 0

/-- The shot that answers a request. -/
def ofRequest (request : ShotRequest) (archetype : ShotArchetype) (tick : Nat) : Shot where
  archetype := request.shot
  position := request.origin
  velocity := directionFromAngle request.angle * archetype.speed
  radius := archetype.radius
  damage := request.damage
  angle := request.angle
  bornTick := tick

/-- Was the shot fired on this tick? -/
def isFresh (s : Shot) (tick : Nat) : Bool :=
  s.bornTick == tick

/-- Moves one step. The answer is whether the shot is still on the playfield. -/
def advance (s : Shot) (dt : Float32) : Bool × Shot :=
  let position := s.position + s.velocity * dt
  (!outOfBounds position Playfield.retireMargin, { s with position := position })

/-- One tick: a fresh shot waits, all others move. -/
def tick (s : Shot) (dt : Float32) (tick : Nat) : Bool × Shot :=
  if s.isFresh tick then (true, s) else s.advance dt

end Shot

/-- The shots by whom they can hurt. -/
structure ShotPools where
  /-- Shots that hurt the player. -/
  enemy : Pool Shot
  /-- Shots that hurt enemies. -/
  player : Pool Shot
  /-- Shots that hurt both sides. -/
  neutral : Pool Shot

namespace ShotPools

/-- Empty pools of given capacities. -/
def new (enemy player neutral : Nat) : ShotPools where
  enemy := .new enemy fun _ => .blank
  player := .new player fun _ => .blank
  neutral := .new neutral fun _ => .blank

/-- Puts a shot into the pool of its target; `none` when that pool is full. -/
def spawn? (p : ShotPools) (request : ShotRequest) (archetype : ShotArchetype) (tick : Nat) :
    Option ShotPools :=
  let shot := Shot.ofRequest request archetype tick
  match archetype.target with
  | .player => (p.enemy.spawn? fun _ => shot).map fun enemy => { p with enemy := enemy }
  | .enemy => (p.player.spawn? fun _ => shot).map fun player => { p with player := player }
  | .both => (p.neutral.spawn? fun _ => shot).map fun neutral => { p with neutral := neutral }

/-- Ticks every shot. -/
def tick (p : ShotPools) (dt : Float32) (tick : Nat) : ShotPools where
  enemy := p.enemy.retain fun shot => shot.tick dt tick
  player := p.player.retain fun shot => shot.tick dt tick
  neutral := p.neutral.retain fun shot => shot.tick dt tick

def activeCount (p : ShotPools) : Nat :=
  p.enemy.activeCount + p.player.activeCount + p.neutral.activeCount

def clear (p : ShotPools) : ShotPools where
  enemy := p.enemy.clear
  player := p.player.clear
  neutral := p.neutral.clear

end ShotPools

end BulletHell
