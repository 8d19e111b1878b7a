import BulletHell.Config.Document

/-!
# The demo game

Two short stages with four kinds of enemies, played when no configuration is given.
-/

namespace BulletHell

namespace Demo

/-! ### Shots -/

def bolt : ShotArchetype where
  name := "bolt"
  target := .enemy
  speed := 12
  radius := 0.06

def pellet : ShotArchetype where
  name := "pellet"
  target := .player
  speed := 3
  radius := 0.07

def needle : ShotArchetype where
  name := "needle"
  target := .player
  speed := 5
  radius := 0.04

def shard : ShotArchetype where
  name := "shard"
  target := .both
  speed := 2.5
  radius := 0.1

/-! ### Enemies -/

def drone : EnemyConfig where
  name := "drone"
  health := 2
  score := 100
  hurtBoxes := [{ radius := 0.3 }]
  hitBoxes := [{ radius := 0.2 }]
  emitters :=
    [{ shot := "pellet"
       program := [.setMode .aimed, .fire, .waitBeats 1] }]

def spinner : EnemyConfig where
  name := "spinner"
  health := 6
  score := 300
  hurtBoxes := [{ radius := 0.4 }]
  shieldBoxes := [{ offset := ⟨0, -0.4⟩, radius := 0.25 }]
  hitBoxes := [{ radius := 0.3 }]
  xCurve := .easeOut
  emitters :=
    [{ shot := "pellet"
       program :=
         [.repeatStart 12, .offsetAngle 30, .fire, .waitFrames 3, .repeatEnd, .waitBeats 2] }]

/-- Five shots that start to one side of the target and sweep across it. -/
def sweepProgram (start step : Int) : List InstructionConfig :=
  [.setMode .aimed, .offsetAngle start, .repeatStart 5, .fire, .offsetAngle step, .repeatEnd,
   .waitBeats 1]

def fan : EnemyConfig where
  name := "fan"
  health := 4
  score := 200
  hurtBoxes := [{ radius := 0.35 }]
  hitBoxes := [{ radius := 0.25 }]
  emitters :=
    [{ offset := ⟨-0.3, 0⟩, shot := "needle", program := sweepProgram (-30) 15 },
     { offset := ⟨0.3, 0⟩, shot := "needle", program := sweepProgram 30 (-15) }]

def mine : EnemyConfig where
  name := "mine"
  health := 1
  score := 50
  hurtBoxes := [{ radius := 0.25 }]
  hitBoxes := [{ radius := 0.25 }]
  emitters :=
    [{ shot := "shard"
       damage := 2
       program := [.setMode .random, .offsetAngle 60, .fire, .waitFrames 12] }]

/-! ### The player -/

/-- One shot in a fixed direction every four ticks. -/
def steadyFire (degrees : Int) : List InstructionConfig :=
  [.offsetAngle degrees, .fire, .waitFrames 4]

/-- Two guns side by side. -/
def twinGuns (left right : Int) : List EmitterConfig :=
  [{ offset := ⟨-0.15, 0.1⟩, shot := "bolt", program := steadyFire left },
   { offset := ⟨0.15, 0.1⟩, shot := "bolt", program := steadyFire right }]

def player : PlayerConfig where
  powerLevels :=
    [[{ shot := "bolt", program := steadyFire 180 }],
     twinGuns 180 180,
     twinGuns 175 (-175) ++
       [{ shot := "bolt"
          damage := 0.5
          program := [.setMode .aimed, .fire, .waitFrames 8] }]]

/-! ### Stages -/

def opening : StageConfig where
  name := "opening"
  track := "opening"
  bpm := 128
  background := "nebula"
  scrollSpeed := 0.5
  routes :=
    [{ name := "swoop"
       steps :=
         [{ target := ⟨-2, 2⟩, beats := 2 },
          { target := ⟨2, 1.5⟩, beats := 4, fireBursts := 2 },
          { target := ⟨0, 3⟩, beats := 2 }] },
     { name := "hover"
       steps :=
         [{ target := ⟨0, 2.5⟩, beats := 2 },
          { target := ⟨0, 2.5⟩, beats := 8, waitToFire := true }] },
     { name := "dive"
       steps :=
         [{ target := ⟨1, 1⟩, beats := 1 },
          { target := ⟨1, -1⟩, beats := 2 }] }]
  spawns :=
    [{ beat := 0, lane := -1.5, prefab := "drone", route := some "swoop" },
     { beat := 0, lane := 1.5, prefab := "drone", route := some "swoop", mirrored := true },
     { beat := 4, lane := 0, prefab := "mine", route := some "dive", exempt := true },
     { beat := 8, lane := 0, prefab := "spinner", route := some "hover" },
     { beat := 16, lane := -1, prefab := "powerup" },
     { beat := 24, lane := 0, prefab := "fan", route := some "hover",
       condition := .noEnemiesPresent },
     { beat := 24, lane := 2, prefab := "drone", route := some "swoop", step := 1,
       condition := .carryOver },
     { beat := 32, lane := -2, prefab := "mine", route := some "dive", mirrored := true,
       exempt := true },
     { beat := 40, lane := 1, prefab := "powerup" }]

def crescendo : StageConfig where
  name := "crescendo"
  track := "crescendo"
  bpm := 150
  background := "storm"
  scrollSpeed := 1
  routes :=
    [{ name := "sweep"
       steps :=
         [{ target := ⟨-2.5, 2.5⟩, beats := 2 },
          { target := ⟨2.5, 2.5⟩, beats := 8, fireBursts := 3 },
          { target := ⟨2.5, 4⟩, beats := 0 }] }]
  spawns :=
    [{ beat := 0, lane := 0, prefab := "spinner", route := some "sweep" },
     { beat := 4, lane := 0, prefab := "spinner", route := some "sweep", mirrored := true },
     { beat := 12, lane := 0, prefab := "powerup" },
     { beat := 16, lane := -1, prefab := "fan", route := some "sweep",
       condition := .noEnemiesPresent },
     { beat := 16, lane := 1, prefab := "fan", route := some "sweep", mirrored := true,
       condition := .carryOver }]

/-! ### The whole game -/

def game : GameConfig where
  settings :=
    { enemyPool := 24, enemyShotPool := 160, playerShotPool := 64, neutralShotPool := 32,
      extendEvery := 5000, seed := 24301 }
  shots := [bolt, pellet, needle, shard]
  enemies := [drone, spinner, fan, mine]
  powerup := { fallDuration := 8, fallCurve := .easeInOut }
  player := player
  stages := [opening, crescendo]

end Demo

end BulletHell
