import BulletHell.Catalog.Writer
import BulletHell.World.State

/-!
# Snapshots

The JSON value of what can be seen of a game at one moment, for tools that watch or compare
runs. Objects are listed in queue order. A snapshot leaves out what only the next step will
show, such as slots that are free and legs that are under way.

## Main definitions

* `World.summary` — phase, score, player and counts.
* `World.snapshot` — every object in play.
-/

namespace BulletHell

def Emitter.snapshot (e : Emitter) : Json :=
  .list
    [.natural e.counter, .integer e.angleOffset, .text e.mode.name, .bool e.mirrored,
     .integer e.lastAngle, .natural e.shot.index, .single e.damage]

def Shot.snapshot (s : Shot) : Json :=
  .list
    [.natural s.archetype.index, .single s.position.x, .single s.position.y,
     .single s.velocity.x, .single s.velocity.y, .single s.radius, .single s.damage,
     .integer s.angle, .natural s.bornTick]

def ShotPools.snapshot (p : ShotPools) : Json :=
  .record
    [("enemy", .ofList Shot.snapshot p.enemy.items),
     ("player", .ofList Shot.snapshot p.player.items),
     ("neutral", .ofList Shot.snapshot p.neutral.items)]

def Player.snapshot (p : Player) : Json :=
  .record
    [("pos", p.position.toJson),
     ("lives", .natural p.lives),
     ("bombs", .natural p.bombs),
     ("power", .natural p.power),
     ("shielded", .bool p.shielded),
     ("alive", .bool p.isAlive),
     ("invulnerable", .bool p.isInvulnerable),
     ("firing", .bool p.isFiring)]

def Enemy.snapshot (e : Enemy) : Json :=
  .record
    [("archetype", .natural e.archetype.index),
     ("pos", e.position.toJson),
     ("health", .single e.health),
     ("counted", .bool e.isCounted),
     ("exiting", .bool e.exiting),
     ("firing", .bool e.firing),
     ("holding", .bool e.holdingFire),
     ("emitters", .ofList Emitter.snapshot e.emitters)]

def Effect.snapshot (e : Effect) : Json :=
  .list [.text e.kind.name, .single e.position.x, .single e.position.y, .single e.timeLeft]

/-- An orb and its place. -/
def Orb.snapshot (placed : Orb × Vec2) : Json :=
  .list [.text placed.1.name, .single placed.2.x, .single placed.2.y]

/-- What can be seen of a powerup, by name. -/
def Powerup.parts (p : Powerup) (settings : PowerupSettings) : List (String × Json) :=
  [("pos", p.position.toJson),
   ("rotation", .single p.rotation),
   ("extend", .bool p.hasExtend),
   ("orbs", .ofList Orb.snapshot (p.orbs settings))]

def ScheduledTrack.snapshot (t : ScheduledTrack Float) : Json :=
  .list [.text t.track, .double t.time]

namespace HeadlessAudio

def snapshot (a : HeadlessAudio Float) : Json :=
  .record
    [("playing", .bool a.isPlaying),
     ("paused", .bool a.paused),
     ("current", .ofOption ScheduledTrack.snapshot a.current),
     ("history", .natural a.history.size)]

/-- Every request since the beginning. -/
def requests (a : HeadlessAudio Float) : Json :=
  .ofList ScheduledTrack.snapshot a.history.toList

end HeadlessAudio

def TimelineState.snapshot : TimelineState Float → Json
  | idle => .text "idle"
  | active => .text "active"
  | paused since => .list [.text "paused", .double since]

def Timeline.snapshot (t : Timeline Float) : Json :=
  .record
    [("state", t.state.snapshot),
     ("paused", .bool t.isPaused),
     ("stage", .ofOption Json.natural t.stage),
     ("loop", .natural t.loopCount),
     ("bar", .integer t.bar),
     ("beat", .integer t.beat),
     ("total", .integer t.totalBeats),
     ("beat_length", .double t.beatLength),
     ("stage_start", .double t.stageStart),
     ("deadlines", .list [.double t.nextStage, .double t.nextBar, .double t.nextBeat]),
     ("cursor", .natural t.cursor)]

def TimelineEvent.snapshot : TimelineEvent Float → Json
  | stageStarted stage loopCount start =>
    .list [.text "stage", .natural stage, .natural loopCount, .double start]
  | beat info =>
    .list
      [.text "beat", .integer info.bar, .integer info.beat, .integer info.total,
       .natural info.firstSpawn, .natural info.endSpawn, .bool info.isDownbeat]

def GamePhase.name : GamePhase → String
  | idle => "Idle"
  | playing => "Playing"
  | paused => "Paused"
  | gameOver => "GameOver"

namespace World

/-- How many objects of each kind are in play. -/
def counts (w : World) : List Nat :=
  [w.enemies.activeCount, w.countedEnemies, w.shots.enemy.activeCount,
   w.shots.player.activeCount, w.shots.neutral.activeCount, w.effects.activeCount,
   w.powerups.activeCount]

/-- The state of play without the objects. -/
def summary (w : World) : Json :=
  let t := w.timeline
  .record
    [("phase", .text w.phase.name),
     ("tick", .natural w.tickCount),
     ("score", .natural w.score),
     ("next_extend", .natural w.nextExtend),
     ("extend_pending", .bool w.extendPending),
     ("carry_over", .bool w.carryOver),
     ("player", w.player.snapshot),
     ("timeline",
       .list
         [.ofOption Json.natural t.stage, .natural t.loopCount, .integer t.bar,
          .integer t.beat, .integer t.totalBeats, .natural t.cursor]),
     ("counts", .ofList Json.natural w.counts)]

/-- Every object in play, with the music and the next random draw. -/
def snapshot (w : World) (audio : HeadlessAudio Float) : Json :=
  .record
    [("enemies", .ofList Enemy.snapshot w.enemies.items),
     ("shots", w.shots.snapshot),
     ("effects", .ofList Effect.snapshot w.effects.items),
     ("powerups",
       .ofList (fun p => Json.record (Powerup.parts p w.catalog.powerup)) w.powerups.items),
     ("player_emitters", .ofList Emitter.snapshot w.player.emitters),
     ("timeline", w.timeline.snapshot),
     ("audio", audio.snapshot),
     ("rng", .natural w.rng.next.1.toNat)]

end World

end BulletHell
