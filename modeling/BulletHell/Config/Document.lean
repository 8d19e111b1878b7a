import BulletHell.Actor.Enemy
import BulletHell.Actor.Powerup
import BulletHell.Actor.Shot
import BulletHell.Config.Settings
import BulletHell.Stage.Compile

/-!
# The configuration document

A whole game as it is written down: everything refers to everything else by name, and nothing
is checked yet.
-/

namespace BulletHell

/-- An emitter as written. -/
structure EmitterConfig where
  offset : Vec2 := Vec2.zero
  /-- The name of the shot fired until the program changes it. -/
  shot : String
  damage : Float32 := 1
  program : List InstructionConfig

/-- An enemy archetype as written. -/
structure EnemyConfig where
  name : String
  health : Float32 := 1
  score : Nat := 0
  hurtBoxes : List Circle := []
  shieldBoxes : List Circle := []
  hitBoxes : List Circle := []
  xCurve : Curve := .easeInOut
  yCurve : Curve := .linear
  emitters : List EmitterConfig := []

/-- The player's emitters, one list for each power level. -/
structure PlayerConfig where
  powerLevels : List (List EmitterConfig)

/-- A game as written. -/
structure GameConfig where
  settings : Settings := {}
  shots : List ShotArchetype
  enemies : List EnemyConfig := []
  powerup : PowerupSettings := {}
  player : PlayerConfig
  stages : List StageConfig

end BulletHell
