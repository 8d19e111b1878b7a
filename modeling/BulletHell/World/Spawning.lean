import BulletHell.World.State

/-!
# Stage events and spawns

What the world makes of the timeline's events. A stage start resets the memory of spawn
decisions. A beat is announced, brings its spawns on screen, and is then heard by everyone,
including the enemies it has just brought.

## Main definitions

* `World.dispatchSpawn` — decides one table entry and carries it out.
* `World.broadcastBeat` — lets all enemies and the player hear a beat.
* `World.onTimelineEvent` — everything that follows from one event.
-/

namespace BulletHell

namespace World

/-- The timing of legs that begin now. -/
def legTiming (w : World) (now : Float) : LegTiming where
  now := now
  beatLength := w.timeline.beatLength
  exitBeats := w.catalog.settings.exitBeats

/-- Where a spawn enters. -/
def entryPoint (event : SpawnEvent) : Vec2 :=
  ⟨event.lane, Playfield.entryHeight⟩

/-- Brings an enemy on screen, or reports that there was no room. -/
def spawnEnemy (w : World) (event : SpawnEvent) (id : EnemyId) (timing : LegTiming) : World :=
  match w.catalog.enemy? id with
  | none => w
  | some archetype =>
    let spawn : EnemySpawn :=
      { id := id, archetype := archetype, lane := event.lane, mirrored := event.mirrored,
        exempt := event.exempt, route := event.route }
    match w.enemies.spawn? fun enemy => enemy.spawn spawn timing with
    | none => w.announce (.spawnDropped event.beat)
    | some enemies =>
      { w with enemies := enemies }.announce (.enemySpawned id (entryPoint event))

/-- Brings a powerup on screen, or reports that there was no room. It carries a pending extend
if the player already has a shield. -/
def spawnPowerup (w : World) (event : SpawnEvent) : World :=
  let extend := w.extendPending && w.player.shielded
  match w.powerups.spawn? fun _ => .entering event.lane extend w.catalog.powerup with
  | none => w.announce (.spawnDropped event.beat)
  | some powerups =>
    { w with powerups := powerups, extendPending := w.extendPending && !extend }.announce
      (.powerupSpawned (entryPoint event) extend)

/-- Decides a table entry that has come due, remembers the decision, and carries it out. -/
def dispatchSpawn (timing : LegTiming) (w : World) (event : SpawnEvent) : World :=
  let permitted := event.condition.permits w.countedEnemies w.carryOver
  let w := { w with carryOver := permitted }
  if permitted then
    match event.target with
    | .enemy id => w.spawnEnemy event id timing
    | .powerup => w.spawnPowerup event
  else w

/-- The table entries that a beat hands out. -/
def dueSpawns (w : World) (info : BeatInfo) : List SpawnEvent :=
  match w.timeline.stage.bind (w.catalog.stages[·]?) with
  | none => []
  | some stage => (stage.spawns.take info.endSpawn).drop info.firstSpawn

/-- Lets everyone hear a beat. -/
def broadcastBeat (w : World) (now : Float) : World :=
  let timing := w.legTiming now
  { w with enemies := w.enemies.update fun enemy => enemy.onBeat timing,
           player := w.player.onBeat }

/-- Announces a beat, and the bar it begins. -/
def announceBeat (w : World) (info : BeatInfo) : World :=
  let w := if info.isDownbeat then w.announce (.bar info.bar) else w
  w.announce (.beat info.bar info.beat info.total)

/-- Follows up on an event of the timeline. -/
def onTimelineEvent (w : World) (event : TimelineEvent Float) (now : Float) : World :=
  match event with
  | .stageStarted stage loopCount start =>
    let name := (w.catalog.stages[stage]?.map (·.name)).getD ""
    { w with carryOver := true }.announce (.stageStarted stage name loopCount start)
  | .beat info =>
    let w := w.announceBeat info
    let w := (w.dueSpawns info).foldl (dispatchSpawn (w.legTiming now)) w
    w.broadcastBeat now

end World

end BulletHell
