/-!
# Settings

The tunables of a game. Every one has a default, so a partial document is a valid one.
-/

namespace BulletHell

/-- What the player can do and starts with. -/
structure PlayerSettings where
  /-- Units per second while firing. -/
  slowSpeed : Float32 := 4
  /-- Units per second otherwise. -/
  fastSpeed : Float32 := 8
  /-- Ticks for which a press of the fire button counts. -/
  fireBufferFrames : Int := 20
  lives : Nat := 3
  bombs : Nat := 2
  bombLimit : Nat := 5
  powerLimit : Nat := 4
  /-- Ticks without harm after a hit. -/
  invulnerableFrames : Nat := 100
  hitRadius : Float32 := 0.05
  startX : Float32 := 0
  startY : Float32 := -2.5

structure Settings where
  enemyPool : Nat := 32
  enemyShotPool : Nat := 100
  playerShotPool : Nat := 64
  neutralShotPool : Nat := 32
  effectPool : Nat := 64
  powerupPool : Nat := 4
  /-- Seconds between rolling a stage and its music. -/
  stageLeadIn : Float := 1
  /-- Beats of the last leg of every enemy. -/
  exitBeats : Nat := 4
  /-- Enemies below this height stop firing. -/
  fireCutoffHeight : Float32 := -1.5
  /-- Refuse programs with ambiguous loops. -/
  strictPrograms : Bool := true
  maxEmitters : Nat := 8
  maxRepeatDepth : Nat := 8
  /-- The first loop, counted from one, in which killed enemies fire back. -/
  revengeFromLoop : Nat := 2
  /-- Damage per tick that the player's body does to an enemy. -/
  meleeDamage : Float32 := 0.25
  /-- Seconds that effects last. -/
  effectTime : Float32 := 0.5
  /-- Points between extends; zero for none. -/
  extendEvery : Nat := 50000
  /-- The seed of the random generator. -/
  seed : Nat := 24301
  player : PlayerSettings := {}

/-- The slots of all pools together. -/
def Settings.totalPoolSlots (s : Settings) : Nat :=
  s.enemyPool + s.enemyShotPool + s.playerShotPool + s.neutralShotPool + s.effectPool +
    s.powerupPool

end BulletHell
