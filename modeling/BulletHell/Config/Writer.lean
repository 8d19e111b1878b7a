import BulletHell.Config.Document
import BulletHell.Json.Basic

/-!
# Writing configuration documents

The JSON value of every part of the document, with all fields spelled out. Reading it gives
the same part again.
-/

namespace BulletHell

def Vec2.toJson (v : Vec2) : Json :=
  .pair (.single v.x) (.single v.y)

def Circle.toJson (c : Circle) : Json :=
  .record [("offset", c.offset.toJson), ("radius", .single c.radius)]

def Curve.toJson : Curve → Json
  | linear => .record [("kind", .text "linear")]
  | easeIn => .record [("kind", .text "ease_in")]
  | easeOut => .record [("kind", .text "ease_out")]
  | easeInOut => .record [("kind", .text "ease_in_out")]
  | constant value => .record [("kind", .text "constant"), ("value", .single value)]

def PlayerSettings.toJson (s : PlayerSettings) : Json :=
  .record
    [("slow_speed", .single s.slowSpeed),
     ("fast_speed", .single s.fastSpeed),
     ("fire_buffer_frames", .integer s.fireBufferFrames),
     ("lives", .natural s.lives),
     ("bombs", .natural s.bombs),
     ("bomb_limit", .natural s.bombLimit),
     ("power_limit", .natural s.powerLimit),
     ("invulnerable_frames", .natural s.invulnerableFrames),
     ("hit_radius", .single s.hitRadius),
     ("start_position", .pair (.single s.startX) (.single s.startY))]

def Settings.toJson (s : Settings) : Json :=
  .record
    [("enemy_pool", .natural s.enemyPool),
     ("enemy_shot_pool", .natural s.enemyShotPool),
     ("player_shot_pool", .natural s.playerShotPool),
     ("neutral_shot_pool", .natural s.neutralShotPool),
     ("effect_pool", .natural s.effectPool),
     ("powerup_pool", .natural s.powerupPool),
     ("stage_lead_in", .double s.stageLeadIn),
     ("exit_beats", .natural s.exitBeats),
     ("fire_cutoff_height", .single s.fireCutoffHeight),
     ("strict_programs", .bool s.strictPrograms),
     ("max_emitters", .natural s.maxEmitters),
     ("max_repeat_depth", .natural s.maxRepeatDepth),
     ("revenge_from_loop", .natural s.revengeFromLoop),
     ("melee_damage", .single s.meleeDamage),
     ("effect_ttl", .single s.effectTime),
     ("extend_every", .natural s.extendEvery),
     ("seed", .natural s.seed),
     ("player", s.player.toJson)]

def PowerupSettings.toJson (s : PowerupSettings) : Json :=
  .record
    [("name", .text s.name),
     ("fall_duration", .single s.fallDuration),
     ("triple_duration", .single s.tripleDuration),
     ("turn_speed_start", .single s.turnSpeedStart),
     ("turn_speed_end", .single s.turnSpeedEnd),
     ("fall_curve", s.fallCurve.toJson),
     ("orb_radius", .single s.orbRadius),
     ("orb_distance", .single s.orbDistance)]

def ShotTarget.name : ShotTarget → String
  | player => "player"
  | enemy => "enemy"
  | both => "both"

def ShotArchetype.toJson (a : ShotArchetype) : Json :=
  .record
    [("name", .text a.name),
     ("target", .text a.target.name),
     ("speed", .single a.speed),
     ("radius", .single a.radius)]

def FireMode.name : FireMode → String
  | static => "static"
  | aimed => "aimed"
  | random => "random"

def InstructionConfig.toJson : InstructionConfig → Json
  | fire => .record [("op", .text "fire")]
  | waitFrames frames => .record [("op", .text "wait_frames"), ("frames", .natural frames)]
  | waitBeats beats => .record [("op", .text "wait_beats"), ("beats", .natural beats)]
  | offsetAngle degrees => .record [("op", .text "offset_angle"), ("degrees", .integer degrees)]
  | resetAngle => .record [("op", .text "reset_angle")]
  | setMode mode => .record [("op", .text "set_mode"), ("mode", .text mode.name)]
  | setShot shot => .record [("op", .text "set_shot"), ("shot", .text shot)]
  | mirror => .record [("op", .text "mirror")]
  | damage amount => .record [("op", .text "damage"), ("amount", .single amount)]
  | repeatStart times => .record [("op", .text "repeat_start"), ("times", .natural times)]
  | repeatEnd => .record [("op", .text "repeat_end")]

def EmitterConfig.toJson (e : EmitterConfig) : Json :=
  .record
    [("offset", e.offset.toJson),
     ("shot", .text e.shot),
     ("damage", .single e.damage),
     ("program", .ofList InstructionConfig.toJson e.program)]

def EnemyConfig.toJson (e : EnemyConfig) : Json :=
  .record
    [("name", .text e.name),
     ("health", .single e.health),
     ("score", .natural e.score),
     ("hurt_boxes", .ofList Circle.toJson e.hurtBoxes),
     ("shield_boxes", .ofList Circle.toJson e.shieldBoxes),
     ("hit_boxes", .ofList Circle.toJson e.hitBoxes),
     ("x_curve", e.xCurve.toJson),
     ("y_curve", e.yCurve.toJson),
     ("emitters", .ofList EmitterConfig.toJson e.emitters)]

def PlayerConfig.toJson (p : PlayerConfig) : Json :=
  .record [("power_levels", .ofList (Json.ofList EmitterConfig.toJson) p.powerLevels)]

def RouteStep.toJson (s : RouteStep) : Json :=
  .record
    [("target", s.target.toJson),
     ("beats", .natural s.beats),
     ("fire_bursts", .natural s.fireBursts),
     ("wait_to_fire", .bool s.waitToFire)]

def RouteConfig.toJson (r : RouteConfig) : Json :=
  .record [("name", .text r.name), ("steps", .ofList RouteStep.toJson r.steps)]

def SpawnCondition.name : SpawnCondition → String
  | none => "none"
  | noEnemiesPresent => "no_enemies_present"
  | carryOver => "carry_over"

def SpawnConfig.toJson (s : SpawnConfig) : Json :=
  .record
    [("beat", .integer s.beat),
     ("lane", .single s.lane),
     ("prefab", .text s.prefab),
     ("condition", .text s.condition.name),
     ("exempt", .bool s.exempt),
     ("route", .ofOption Json.text s.route),
     ("step", .natural s.step),
     ("mirrored", .bool s.mirrored)]

def StageConfig.toJson (s : StageConfig) : Json :=
  .record
    [("name", .text s.name),
     ("track", .text s.track),
     ("bpm", .double s.bpm),
     ("background", .text s.background),
     ("scroll_speed", .single s.scrollSpeed),
     ("routes", .ofList RouteConfig.toJson s.routes),
     ("spawns", .ofList SpawnConfig.toJson s.spawns)]

def GameConfig.toJson (c : GameConfig) : Json :=
  .record
    [("settings", c.settings.toJson),
     ("shots", .ofList ShotArchetype.toJson c.shots),
     ("enemies", .ofList EnemyConfig.toJson c.enemies),
     ("powerup", c.powerup.toJson),
     ("player", c.player.toJson),
     ("stages", .ofList StageConfig.toJson c.stages)]

end BulletHell
