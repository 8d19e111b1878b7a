import BulletHell.Config.Document
import BulletHell.Json.Reader
import BulletHell.Json.Shape

/-!
# Reading configuration documents

One shape for each part of the document. Settings and powerup settings have a default for
every field; elsewhere a field without a default has to be there. `null` stands for a value
only as the route of a spawn.
-/

namespace BulletHell

namespace Shape

open RecordReader

def vec2 : Shape Vec2 :=
  tuple single single Vec2.mk

def circle : Shape Circle := record do
  let offset ← optional "offset" Vec2.zero vec2
  let radius ← required "radius" single
  return { offset := offset, radius := radius }

def curve : Shape Curve :=
  tagged "kind" fun
    | "linear" => pure .linear
    | "ease_in" => pure .easeIn
    | "ease_out" => pure .easeOut
    | "ease_in_out" => pure .easeInOut
    | "constant" => .constant <$> required "value" single
    | _ => failure

/-! ### Settings -/

def playerSettings : Shape PlayerSettings := record do
  let base : PlayerSettings := {}
  let slowSpeed ← optional "slow_speed" base.slowSpeed single
  let fastSpeed ← optional "fast_speed" base.fastSpeed single
  let fireBufferFrames ← optional "fire_buffer_frames" base.fireBufferFrames integer32
  let lives ← optional "lives" base.lives natural32
  let bombs ← optional "bombs" base.bombs natural32
  let bombLimit ← optional "bomb_limit" base.bombLimit natural32
  let powerLimit ← optional "power_limit" base.powerLimit natural32
  let invulnerableFrames ←
    optional "invulnerable_frames" base.invulnerableFrames natural32
  let hitRadius ← optional "hit_radius" base.hitRadius single
  let start ← optional "start_position" ⟨base.startX, base.startY⟩ vec2
  return { slowSpeed := slowSpeed, fastSpeed := fastSpeed, fireBufferFrames := fireBufferFrames,
           lives := lives, bombs := bombs, bombLimit := bombLimit, powerLimit := powerLimit,
           invulnerableFrames := invulnerableFrames, hitRadius := hitRadius,
           startX := start.x, startY := start.y }

def settings : Shape Settings := record do
  let base : Settings := {}
  let enemyPool ← optional "enemy_pool" base.enemyPool natural64
  let enemyShotPool ← optional "enemy_shot_pool" base.enemyShotPool natural64
  let playerShotPool ← optional "player_shot_pool" base.playerShotPool natural64
  let neutralShotPool ← optional "neutral_shot_pool" base.neutralShotPool natural64
  let effectPool ← optional "effect_pool" base.effectPool natural64
  let powerupPool ← optional "powerup_pool" base.powerupPool natural64
  let stageLeadIn ← optional "stage_lead_in" base.stageLeadIn double
  let exitBeats ← optional "exit_beats" base.exitBeats natural32
  let fireCutoffHeight ← optional "fire_cutoff_height" base.fireCutoffHeight single
  let strictPrograms ← optional "strict_programs" base.strictPrograms bool
  let maxEmitters ← optional "max_emitters" base.maxEmitters natural64
  let maxRepeatDepth ← optional "max_repeat_depth" base.maxRepeatDepth natural64
  let revengeFromLoop ← optional "revenge_from_loop" base.revengeFromLoop natural32
  let meleeDamage ← optional "melee_damage" base.meleeDamage single
  let effectTime ← optional "effect_ttl" base.effectTime single
  let extendEvery ← optional "extend_every" base.extendEvery natural64
  let seed ← optional "seed" base.seed natural64
  let player ← optional "player" base.player playerSettings
  return { enemyPool := enemyPool, enemyShotPool := enemyShotPool,
           playerShotPool := playerShotPool, neutralShotPool := neutralShotPool,
           effectPool := effectPool, powerupPool := powerupPool, stageLeadIn := stageLeadIn,
           exitBeats := exitBeats, fireCutoffHeight := fireCutoffHeight,
           strictPrograms := strictPrograms, maxEmitters := maxEmitters,
           maxRepeatDepth := maxRepeatDepth, revengeFromLoop := revengeFromLoop,
           meleeDamage := meleeDamage, effectTime := effectTime, extendEvery := extendEvery,
           seed := seed, player := player }

def powerupSettings : Shape PowerupSettings := record do
  let base : PowerupSettings := {}
  let name ← optional "name" base.name text
  let fallDuration ← optional "fall_duration" base.fallDuration single
  let tripleDuration ← optional "triple_duration" base.tripleDuration single
  let turnSpeedStart ← optional "turn_speed_start" base.turnSpeedStart single
  let turnSpeedEnd ← optional "turn_speed_end" base.turnSpeedEnd single
  let fallCurve ← optional "fall_curve" base.fallCurve curve
  let orbRadius ← optional "orb_radius" base.orbRadius single
  let orbDistance ← optional "orb_distance" base.orbDistance single
  return { name := name, fallDuration := fallDuration, tripleDuration := tripleDuration,
           turnSpeedStart := turnSpeedStart, turnSpeedEnd := turnSpeedEnd, fallCurve := fallCurve,
           orbRadius := orbRadius, orbDistance := orbDistance }

/-! ### Shots and programs -/

def shotTarget : Shape ShotTarget :=
  word [("player", .player), ("enemy", .enemy), ("both", .both)]

def shotArchetype : Shape ShotArchetype := record do
  let name ← required "name" text
  let target ← required "target" shotTarget
  let speed ← optional "speed" 5 single
  let radius ← optional "radius" 0.08 single
  return { name := name, target := target, speed := speed, radius := radius }

/-- Fire modes by name. -/
def fireModes : List (String × FireMode) :=
  [("static", .static), ("aimed", .aimed), ("random", .random)]

/-- A fire mode. Inside a tagged record the value next to the name may also be empty. -/
def fireMode : Shape FireMode
  | .record [(name, .record [])] => constant? fireModes name
  | j => word fireModes j

def instruction : Shape InstructionConfig :=
  tagged "op" fun
    | "fire" => pure .fire
    | "wait_frames" => .waitFrames <$> required "frames" natural32
    | "wait_beats" => .waitBeats <$> required "beats" natural32
    | "offset_angle" => .offsetAngle <$> required "degrees" integer32
    | "reset_angle" => pure .resetAngle
    | "set_mode" => .setMode <$> required "mode" fireMode
    | "set_shot" => .setShot <$> required "shot" text
    | "mirror" => pure .mirror
    | "damage" => .damage <$> required "amount" single
    | "repeat_start" => .repeatStart <$> required "times" natural32
    | "repeat_end" => pure .repeatEnd
    | _ => failure

def emitter : Shape EmitterConfig := record do
  let offset ← optional "offset" Vec2.zero vec2
  let shot ← required "shot" text
  let damage ← optional "damage" 1 single
  let program ← required "program" (listOf instruction)
  return { offset := offset, shot := shot, damage := damage, program := program }

/-! ### Enemies and the player -/

def enemy : Shape EnemyConfig := record do
  let name ← required "name" text
  let health ← optional "health" 1 single
  let score ← optional "score" 0 natural64
  let hurtBoxes ← optional "hurt_boxes" [] (listOf circle)
  let shieldBoxes ← optional "shield_boxes" [] (listOf circle)
  let hitBoxes ← optional "hit_boxes" [] (listOf circle)
  let xCurve ← optional "x_curve" .easeInOut curve
  let yCurve ← optional "y_curve" .linear curve
  let emitters ← optional "emitters" [] (listOf emitter)
  return { name := name, health := health, score := score, hurtBoxes := hurtBoxes,
           shieldBoxes := shieldBoxes, hitBoxes := hitBoxes, xCurve := xCurve, yCurve := yCurve,
           emitters := emitters }

def player : Shape PlayerConfig := record do
  let powerLevels ← required "power_levels" (listOf (listOf emitter))
  return { powerLevels := powerLevels }

/-! ### Stages -/

def routeStep : Shape RouteStep := record do
  let target ← required "target" vec2
  let beats ← required "beats" natural32
  let fireBursts ← optional "fire_bursts" 0 natural32
  let waitToFire ← optional "wait_to_fire" false bool
  return { target := target, beats := beats, fireBursts := fireBursts, waitToFire := waitToFire }

def route : Shape RouteConfig := record do
  let name ← required "name" text
  let steps ← required "steps" (listOf routeStep)
  return { name := name, steps := steps }

def spawnCondition : Shape SpawnCondition :=
  word [("none", .none), ("no_enemies_present", .noEnemiesPresent), ("carry_over", .carryOver)]

def spawn : Shape SpawnConfig := record do
  let beat ← required "beat" integer64
  let lane ← required "lane" single
  let prefab ← required "prefab" text
  let condition ← optional "condition" .none spawnCondition
  let exempt ← optional "exempt" false bool
  let route ← optional "route" none (nullable text)
  let step ← optional "step" 0 natural64
  let mirrored ← optional "mirrored" false bool
  return { beat := beat, lane := lane, prefab := prefab, condition := condition, exempt := exempt,
           route := route, step := step, mirrored := mirrored }

def stage : Shape StageConfig := record do
  let name ← required "name" text
  let track ← required "track" text
  let bpm ← required "bpm" double
  let background ← optional "background" "" text
  let scrollSpeed ← optional "scroll_speed" 0 single
  let routes ← optional "routes" [] (listOf route)
  let spawns ← required "spawns" (listOf spawn)
  return { name := name, track := track, bpm := bpm, background := background,
           scrollSpeed := scrollSpeed, routes := routes, spawns := spawns }

/-! ### The whole document -/

def game : Shape GameConfig := record do
  let settings ← optional "settings" {} settings
  let shots ← required "shots" (listOf shotArchetype)
  let enemies ← optional "enemies" [] (listOf enemy)
  let powerup ← optional "powerup" {} powerupSettings
  let player ← required "player" player
  let stages ← required "stages" (listOf stage)
  return { settings := settings, shots := shots, enemies := enemies, powerup := powerup,
           player := player, stages := stages }

end Shape

/-- Reads a game from the text of its document. -/
def GameConfig.parse (document : String) : Except ConfigError GameConfig :=
  match (Json.parse? document).bind Shape.game with
  | some config => .ok config
  | none => .error .malformed

end BulletHell
