import BulletHell.Catalog
import BulletHell.Config.Writer

/-!
# Listing a catalog

The JSON value of a loaded catalog, for tools that want to see what became of a configuration:
names are places in lists, and programs are lists of instructions. Parts that a catalog takes
over unchanged from its document are listed as the document would be written.
-/

namespace BulletHell

/-- An instruction as its name and what goes with it. -/
def Instruction.toJson : Instruction → Json
  | fire => .list [.text "fire"]
  | waitFrames frames => .list [.text "wait_frames", .natural frames]
  | waitBeats beats => .list [.text "wait_beats", .natural beats]
  | offsetAngle degrees => .list [.text "offset_angle", .integer degrees]
  | resetAngle => .list [.text "reset_angle"]
  | setMode mode => .list [.text "set_mode", .text mode.name]
  | setShot shot => .list [.text "set_shot", .natural shot.index]
  | mirror => .list [.text "mirror"]
  | damage amount => .list [.text "damage", .single amount]
  | repeatStart times => .list [.text "repeat_start", .natural times]
  | repeatEnd => .list [.text "repeat_end"]

def Program.toJson (p : Program) : Json :=
  .ofList Instruction.toJson p.instructions

def EmitterSpec.toJson (s : EmitterSpec) : Json :=
  .record
    [("offset", s.offset.toJson),
     ("shot", .natural s.shot.index),
     ("damage", .single s.damage),
     ("program", s.program.toJson)]

def EnemyArchetype.toJson (a : EnemyArchetype) : Json :=
  .record
    [("name", .text a.name),
     ("health", .single a.health),
     ("score", .natural a.score),
     ("hurt_boxes", (Json.ofList Circle.toJson a.hurtBoxes).finite),
     ("shield_boxes", (Json.ofList Circle.toJson a.shieldBoxes).finite),
     ("hit_boxes", (Json.ofList Circle.toJson a.hitBoxes).finite),
     ("x_curve", a.xCurve.toJson.finite),
     ("y_curve", a.yCurve.toJson.finite),
     ("emitters", .ofList EmitterSpec.toJson a.emitters)]

def RouteRef.toJson (r : RouteRef) : Json :=
  .record
    [("start", .natural r.start), ("steps", (Json.ofList RouteStep.toJson r.steps).finite)]

def SpawnTarget.toJson : SpawnTarget → Json
  | enemy id => .natural id.index
  | powerup => .text "powerup"

def SpawnEvent.toJson (s : SpawnEvent) : Json :=
  .record
    [("beat", .integer s.beat),
     ("lane", .single s.lane),
     ("target", s.target.toJson),
     ("condition", .text s.condition.name),
     ("exempt", .bool s.exempt),
     ("mirrored", .bool s.mirrored),
     ("route", .ofOption RouteRef.toJson s.route)]

def Stage.toJson (s : Stage Float) : Json :=
  .record
    [("name", .text s.name),
     ("track", .text s.track),
     ("bpm", .double s.bpm),
     ("beat_length", .double s.beatLength),
     ("background", .text s.background),
     ("scroll_speed", .single s.scrollSpeed),
     ("spawns", .ofList SpawnEvent.toJson s.spawns)]

namespace Catalog

/-- The parts of a catalog by name. -/
def parts (c : Catalog) : List (String × Json) :=
  [("settings", c.settings.toJson.finite),
   ("shots", (Json.ofList ShotArchetype.toJson c.shots).finite),
   ("powerup", c.powerup.toJson.finite),
   ("enemies", .ofList EnemyArchetype.toJson c.enemies),
   ("power_levels", .ofList (Json.ofList EmitterSpec.toJson) c.powerLevels),
   ("stages", .ofList Stage.toJson c.stages),
   ("refused", .ofList Json.text c.refused)]

def toJson (c : Catalog) : Json :=
  .record c.parts

end Catalog

end BulletHell
