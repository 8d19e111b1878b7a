import BulletHell.Config.Document

/-!
# The catalog

The catalog is a game configuration with every name resolved to a place in a list, so that
play never looks up a name. Loading refuses a configuration with any defect outside the stage
list; a defective stage is left out alone, as long as one stage remains.

## Main definitions

* `Catalog` — the resolved configuration.
* `Catalog.ofConfig` — loads a configuration or reports its first defect.
* `Catalog.shot?`, `Catalog.enemy?`, `Catalog.powerLevel` — look-up during play.
-/

namespace BulletHell

structure Catalog where
  settings : Settings
  shots : List ShotArchetype
  enemies : List EnemyArchetype
  powerup : PowerupSettings
  powerLevels : List (List EmitterSpec)
  stages : List (Stage Float)
  /-- The names of the stages left out. -/
  refused : List String

namespace Catalog

/-! ### Names -/

/-- The place of the shot with a given name. -/
def findShot? (shots : List ShotArchetype) (name : String) : Option ShotId :=
  (shots.findIdx? (·.name == name)).map ShotId.mk

/-- The place of the enemy with a given name. -/
def findEnemy? (enemies : List EnemyArchetype) (name : String) : Option EnemyId :=
  (enemies.findIdx? (·.name == name)).map EnemyId.mk

/-- The first name that occurs a second time. -/
def firstRepeated? : List String → List String → Option String
  | _, [] => none
  | seen, name :: rest =>
    if seen.contains name then some name else firstRepeated? (name :: seen) rest

/-! ### Emitters -/

/-- Compiles the emitter with a given number. -/
def compileEmitter (settings : Settings) (shots : List ShotArchetype) (owner : String)
    (number : Nat) (e : EmitterConfig) : Except ConfigError EmitterSpec :=
  match findShot? shots e.shot with
  | none => .error (.unknownShot owner e.shot)
  | some shot =>
    match Program.compile (findShot? shots) settings.strictPrograms settings.maxRepeatDepth
        e.program with
    | .error cause => .error (.program owner number cause)
    | .ok program =>
      .ok { offset := e.offset, shot := shot, damage := e.damage, program := program }

/-- Compiles the emitters from a given number on. -/
def compileEmittersFrom (settings : Settings) (shots : List ShotArchetype) (owner : String) :
    Nat → List EmitterConfig → Except ConfigError (List EmitterSpec)
  | _, [] => .ok []
  | number, e :: rest =>
    match compileEmitter settings shots owner number e with
    | .error e => .error e
    | .ok spec =>
      match compileEmittersFrom settings shots owner (number + 1) rest with
      | .error e => .error e
      | .ok specs => .ok (spec :: specs)

/-- Compiles all emitters of an owner, of which there may not be too many. -/
def compileEmitters (settings : Settings) (shots : List ShotArchetype) (owner : String)
    (es : List EmitterConfig) : Except ConfigError (List EmitterSpec) :=
  if settings.maxEmitters < es.length then
    .error (.tooManyEmitters owner es.length settings.maxEmitters)
  else compileEmittersFrom settings shots owner 0 es

/-! ### Enemies, power levels and stages -/

/-- Compiles the enemies. A name may be neither that of an enemy before nor the one set aside
for powerups. -/
def compileEnemies (settings : Settings) (shots : List ShotArchetype) (powerup : String) :
    List String → List EnemyConfig → Except ConfigError (List EnemyArchetype)
  | _, [] => .ok []
  | seen, e :: rest =>
    if e.name = powerup || seen.contains e.name then .error (.duplicateArchetype e.name)
    else
      match compileEmitters settings shots e.name e.emitters with
      | .error e => .error e
      | .ok emitters =>
        match compileEnemies settings shots powerup (e.name :: seen) rest with
        | .error e => .error e
        | .ok enemies =>
          .ok ({ name := e.name, health := e.health, score := e.score,
                 hurtBoxes := e.hurtBoxes, shieldBoxes := e.shieldBoxes,
                 hitBoxes := e.hitBoxes, xCurve := e.xCurve, yCurve := e.yCurve,
                 emitters := emitters } :: enemies)

/-- Compiles the emitters of every power level. -/
def compileLevels (settings : Settings) (shots : List ShotArchetype) :
    List (List EmitterConfig) → Except ConfigError (List (List EmitterSpec))
  | [] => .ok []
  | level :: rest =>
    match compileEmitters settings shots "player" level with
    | .error e => .error e
    | .ok specs =>
      match compileLevels settings shots rest with
      | .error e => .error e
      | .ok levels => .ok (specs :: levels)

/-- The stages that compile. -/
def playable (enemyId? : String → Option EnemyId) (powerup : String) (stages : List StageConfig) :
    List (Stage Float) :=
  stages.filterMap fun s => (s.compile enemyId? powerup).toOption

/-- The names of the stages that do not. -/
def refusedNames (enemyId? : String → Option EnemyId) (powerup : String)
    (stages : List StageConfig) : List String :=
  (stages.filter fun s => (s.compile enemyId? powerup).toOption.isNone).map (·.name)

/-- Compiles the stage list, given everything else. -/
def addStages (catalog : Catalog) (stages : List StageConfig) : Except ConfigError Catalog :=
  let enemyId? := findEnemy? catalog.enemies
  let compiled := playable enemyId? catalog.powerup.name stages
  let refused := refusedNames enemyId? catalog.powerup.name stages
  if stages.isEmpty then .error .noStages
  else if compiled.isEmpty then .error (.noPlayableStages refused.length)
  else .ok { catalog with stages := compiled, refused := refused }

/-- Loads a configuration. Defects are looked for in the shots, the enemies, the power levels
and the stages, in this order. -/
def ofConfig (config : GameConfig) : Except ConfigError Catalog :=
  let settings := config.settings
  let shots := config.shots
  match firstRepeated? [] (shots.map (·.name)) with
  | some name => .error (.duplicateArchetype name)
  | none =>
    match compileEnemies settings shots config.powerup.name [] config.enemies with
    | .error e => .error e
    | .ok enemies =>
      if config.player.powerLevels.isEmpty then .error .noPowerLevels
      else
        match compileLevels settings shots config.player.powerLevels with
        | .error e => .error e
        | .ok powerLevels =>
          addStages
            { settings := settings, shots := shots, enemies := enemies,
              powerup := config.powerup, powerLevels := powerLevels, stages := [],
              refused := [] }
            config.stages

/-! ### Look-up -/

/-- The place of the shot with a given name. -/
def shotId? (c : Catalog) (name : String) : Option ShotId :=
  findShot? c.shots name

/-- The place of the enemy with a given name. -/
def enemyId? (c : Catalog) (name : String) : Option EnemyId :=
  findEnemy? c.enemies name

def shot? (c : Catalog) (id : ShotId) : Option ShotArchetype :=
  c.shots[id.index]?

def enemy? (c : Catalog) (id : EnemyId) : Option EnemyArchetype :=
  c.enemies[id.index]?

/-- The emitters of a power level; above the highest level it stays the highest. -/
def powerLevel (c : Catalog) (power : Nat) : List EmitterSpec :=
  c.powerLevels.getD (min power (c.powerLevels.length - 1)) []

end Catalog

end BulletHell
