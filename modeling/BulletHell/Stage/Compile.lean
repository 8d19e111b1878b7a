import BulletHell.Config.Error
import BulletHell.Stage.Basic

/-!
# Stages as written, and how they are compiled

A written stage refers to enemies and routes by name. Compiling resolves the names and refuses
a stage whose tempo or spawn table makes no sense. It reports the first defect: the tempo
before all entries, entries in table order, and within an entry its beat before its names.

## Main definitions

* `StageConfig`, `SpawnConfig`, `RouteConfig` — a stage as written.
* `StageConfig.compile` — the stage ready to play, or its first defect.
-/

namespace BulletHell

structure RouteConfig where
  name : String
  steps : List RouteStep

structure SpawnConfig where
  beat : Int
  lane : Float32
  /-- The name of an enemy, or the name set aside for powerups. -/
  prefab : String
  condition : SpawnCondition := .none
  exempt : Bool := false
  route : Option String := none
  /-- The route step to begin with. -/
  step : Nat := 0
  mirrored : Bool := false

structure StageConfig where
  name : String
  track : String
  bpm : Float
  background : String := ""
  scrollSpeed : Float32 := 0
  routes : List RouteConfig := []
  spawns : List SpawnConfig

namespace StageConfig

/-- The steps of a route. Of several routes with one name the last counts. -/
def route? (s : StageConfig) (name : String) : Option (List RouteStep) :=
  (s.routes.reverse.find? (·.name == name)).map (·.steps)

/-- Resolves the prefab of an entry. -/
def target (s : StageConfig) (enemyId? : String → Option EnemyId) (powerup : String)
    (spawn : SpawnConfig) : Except ConfigError SpawnTarget :=
  if spawn.prefab = powerup then .ok .powerup
  else
    match enemyId? spawn.prefab with
    | some id => .ok (.enemy id)
    | none => .error (.unknownArchetype s.name spawn.prefab)

/-- Resolves the route of an entry. -/
def routeRef (s : StageConfig) (spawn : SpawnConfig) : Except ConfigError (Option RouteRef) :=
  match spawn.route with
  | none => .ok none
  | some name =>
    match s.route? name with
    | none => .error (.unknownRoute s.name name)
    | some steps =>
      if spawn.step < steps.length then .ok (some ⟨steps, spawn.step⟩)
      else .error (.routeStepOutOfRange s.name name spawn.step)

/-- Compiles one entry, given its index and the beat of the entry before it. -/
def compileSpawn (s : StageConfig) (enemyId? : String → Option EnemyId) (powerup : String)
    (index : Nat) (previous : Int) (spawn : SpawnConfig) : Except ConfigError SpawnEvent :=
  if spawn.beat < 0 then .error (.negativeBeat s.name index spawn.beat)
  else if spawn.beat < previous then .error (.spawnOrder s.name index spawn.beat previous)
  else
    match s.target enemyId? powerup spawn with
    | .error e => .error e
    | .ok target =>
      match s.routeRef spawn with
      | .error e => .error e
      | .ok route =>
        .ok { beat := spawn.beat, lane := spawn.lane, target := target,
              condition := spawn.condition, exempt := spawn.exempt, route := route,
              mirrored := spawn.mirrored }

/-- Compiles the entries from an index on. -/
def compileSpawns (s : StageConfig) (enemyId? : String → Option EnemyId) (powerup : String) :
    Nat → Int → List SpawnConfig → Except ConfigError (List SpawnEvent)
  | _, _, [] => .ok []
  | index, previous, spawn :: rest =>
    match s.compileSpawn enemyId? powerup index previous spawn with
    | .error e => .error e
    | .ok event =>
      match s.compileSpawns enemyId? powerup (index + 1) spawn.beat rest with
      | .error e => .error e
      | .ok events => .ok (event :: events)

/-- Compiles a stage. -/
def compile (s : StageConfig) (enemyId? : String → Option EnemyId) (powerup : String) :
    Except ConfigError (Stage Float) :=
  if s.bpm.isFinite && 0 < s.bpm then
    match s.compileSpawns enemyId? powerup 0 0 s.spawns with
    | .error e => .error e
    | .ok spawns =>
      .ok { name := s.name, track := s.track, bpm := s.bpm, background := s.background,
            scrollSpeed := s.scrollSpeed, spawns := spawns }
  else .error (.invalidBpm s.name s.bpm)

end StageConfig

end BulletHell
