import BulletHell.Actor.Effect
import BulletHell.Actor.Powerup
import BulletHell.Config.Writer
import BulletHell.Stage.Basic

/-!
# Game events

What the world tells its audience. Events are queued in the order in which things happen and
have no influence on play.
-/

namespace BulletHell

inductive GameEvent where
  | stageStarted (stage : Nat) (name : String) (loopCount : Nat) (start : Float)
  /-- The first beat of a bar. -/
  | bar (bar : Int)
  | beat (bar beat total : Int)
  | enemySpawned (archetype : EnemyId) (position : Vec2)
  | powerupSpawned (position : Vec2) (extend : Bool)
  /-- A spawn came due and its pool was full. -/
  | spawnDropped (beat : Int)
  | shotFired (shot : ShotId) (position : Vec2) (angle : Int)
  | effect (kind : EffectKind) (position : Vec2)
  | enemyKilled (position : Vec2) (score : Nat)
  | powerupCollected (orb : Orb) (position : Vec2)
  | bombUsed (position : Vec2)
  | playerHit (position : Vec2) (shieldLost : Bool)
  | playerDied (position : Vec2)
  | extendEarned (score : Nat)
  | paused
  | resumed (lost : Float)
  | gameOver (score : Nat)

def EffectKind.name : EffectKind → String
  | kill => "kill"
  | shieldHit => "shield_hit"
  | hurtHit => "hurt_hit"
  | pickup => "pickup"
  | playerHit => "player_hit"
  | bomb => "bomb"

def Orb.name : Orb → String
  | shield => "shield"
  | extend => "extend"
  | power => "power"
  | bomb => "bomb"

namespace GameEvent

/-- The name of an event. -/
def name : GameEvent → String
  | stageStarted .. => "stage_started"
  | bar .. => "bar"
  | beat .. => "beat"
  | enemySpawned .. => "enemy_spawned"
  | powerupSpawned .. => "powerup_spawned"
  | spawnDropped .. => "spawn_dropped"
  | shotFired .. => "shot_fired"
  | effect .. => "effect"
  | enemyKilled .. => "enemy_killed"
  | powerupCollected .. => "powerup_collected"
  | bombUsed .. => "bomb_used"
  | playerHit .. => "player_hit"
  | playerDied .. => "player_died"
  | extendEarned .. => "extend_earned"
  | paused => "paused"
  | resumed .. => "resumed"
  | gameOver .. => "game_over"

/-- What an event tells besides its name. -/
def details : GameEvent → List (String × Json)
  | stageStarted stage title loopCount start =>
    [("stage", .natural stage), ("name", .text title), ("loop_count", .natural loopCount),
     ("start", .double start)]
  | bar number => [("bar", .integer number)]
  | beat inBar number total =>
    [("bar", .integer inBar), ("beat", .integer number), ("total", .integer total)]
  | enemySpawned archetype position =>
    [("archetype", .natural archetype.index), ("pos", position.toJson)]
  | powerupSpawned position extend => [("pos", position.toJson), ("extend", .bool extend)]
  | spawnDropped due => [("beat", .integer due)]
  | shotFired shot position angle =>
    [("shot", .natural shot.index), ("pos", position.toJson), ("angle", .integer angle)]
  | effect kind position => [("kind", .text kind.name), ("pos", position.toJson)]
  | enemyKilled position score => [("pos", position.toJson), ("score", .natural score)]
  | powerupCollected orb position => [("orb", .text orb.name), ("pos", position.toJson)]
  | bombUsed position => [("pos", position.toJson)]
  | playerHit position shieldLost =>
    [("pos", position.toJson), ("shield_lost", .bool shieldLost)]
  | playerDied position => [("pos", position.toJson)]
  | extendEarned score => [("score", .natural score)]
  | paused => []
  | resumed lost => [("lost", .double lost)]
  | gameOver score => [("score", .natural score)]

/-- The record of an event. -/
def toJson (e : GameEvent) : Json :=
  .record (("event", .text e.name) :: e.details)

end GameEvent

end BulletHell
