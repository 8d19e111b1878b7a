import BulletHell.Proofs.Pool.Sweep
import BulletHell.Proofs.World.Session
import BulletHell.Proofs.World.Watch

/-!
# Guarded play

The game is written so that every access by place has an answer: where there is nothing at a
place, something harmless is done instead. Guarded play is the same game without these answers. It
fails, with `none`, at the first access by place that is out of range:

* the kind of a requested shot, and the range of a random draw, by keeping watch over fire control;
* the archetype of an enemy that is brought on screen, engaged, or tested for contact;
* a stage, when it is rolled, followed or announced, and the entries of its spawn table that a
  beat hands out, one by one;
* the emitters in use, of which an enemy and the player may have no more than they have room for.

A guarded operation has the name of the operation and a question mark. Where an operation makes
its accesses before anything else, the guards stand in front of it; where they come in between, it
is written out. Instructions are not guarded here, since an emitter compares its counter with the
length of its program before it fetches.

## Main definitions

* `Timeline.advance?`, `World.onTimelineEvent?`, `World.resolveHits?` — parts of a tick
* `World.tick?`, `World.call?`, `World.play?` — ticks, calls and sessions
-/

namespace BulletHell

/-! ### The timeline -/

namespace Timeline

open ClockTime

variable {τ α : Type} [ClockTime τ] [AudioPlayer α τ]

/-- The next stage is looked up. -/
def roll? (t : Timeline τ) (now : τ) (stages : List (Stage τ)) (audio : α) :
    Option (Option (TimelineEvent τ) × Timeline τ × α) := do
  guard ((t.successor stages.length).1 < stages.length)
  return t.roll now stages audio

/-- The current stage is looked up unless the next one begins. -/
def advance? (t : Timeline τ) (now : τ) (stages : List (Stage τ)) (audio : α) :
    Option (Option (TimelineEvent τ) × Timeline τ × α) :=
  match t.state, t.stage with
  | .active, some i =>
    if due t.nextStage now then t.roll? now stages audio
    else do
      guard (i < stages.length)
      return t.advance now stages audio
  | _, _ => some (t.advance now stages audio)

def start? (t : Timeline τ) (now : τ) (stages : List (Stage τ)) (audio : α) :
    Option (Option (TimelineEvent τ) × Timeline τ × α) :=
  if stages.isEmpty then some (t.start now stages audio)
  else { idle t.leadIn with state := .active }.roll? now stages audio

end Timeline

/-- The emitters in use fit the room for them. -/
def Enemy.fits (e : Enemy) : Bool :=
  e.emitters.length ≤ e.maxEmitters

/-- The emitters in use fit the room for them. -/
def Player.fits (p : Player) : Bool :=
  p.emitters.length ≤ p.maxEmitters

/-! ### Hits -/

namespace Skirmish

/-- A killed enemy takes revenge with the emitters in use. -/
def wound? (s : Skirmish) (toll : Toll) (enemy : Enemy) (archetype : EnemyArchetype)
    (damage : Float32) : Option (Bool × Enemy × Toll) :=
  if damage ≤ 0 then some (true, enemy, toll)
  else
    let (dead, enemy) := enemy.takeDamage damage
    if !dead then some (true, enemy, toll)
    else do
      let fire ←
        if s.revenge then (enemy.fireRevenge ((Watch.on toll.fire).require enemy.fits)).result?
        else some toll.fire
      return (false, enemy,
        { toll with fire := fire, kills := (enemy.position, archetype.score) :: toll.kills })

/-- The archetype of the enemy is looked up. -/
def engage? (s : Skirmish) (toll : Toll) (enemy : Enemy) : Option (Bool × Enemy × Toll) := do
  let archetype ← s.catalog.enemy? enemy.archetype
  let shots := toll.fire.shots
  let (neutral, first) :=
    Volley.strike shots.neutral enemy.position archetype s.tick toll.contacts
  let (player, second) :=
    Volley.strike shots.player enemy.position archetype s.tick first.contacts
  let damage := first.damage + second.damage
  let damage :=
    match s.melee? enemy.position archetype with
    | some melee => damage + melee
    | none => damage
  let shots := { shots with neutral := neutral, player := player }
  let toll :=
    { toll with fire := { toll.fire with shots := shots }, contacts := second.contacts }
  s.wound? toll enemy archetype damage

end Skirmish

namespace World

/-- The first pass. -/
def resolveEnemies? (w : World) : Option World := do
  let (enemies, toll) ←
    w.enemies.trySweep w.skirmish.engage? ⟨w.fireControl w.livingPlayer 0, [], []⟩
  return w.settle enemies toll

/-- The archetypes of the enemies are looked up, as far as the first one that touches. -/
def bodyContact? (w : World) : Option Bool :=
  w.enemies.items.anyM fun enemy => do
    let archetype ← w.catalog.enemy? enemy.archetype
    return anyOverlap archetype.hitBoxes enemy.position w.player.position
      w.catalog.settings.player.hitRadius

def findHit? (w : World) : Option (Bool × World) :=
  let player := w.player.position
  let radius := w.catalog.settings.player.hitRadius
  let (enemy, hit) := strikePlayer w.shots.enemy player radius w.tickCount
  let w := { w with shots := { w.shots with enemy := enemy } }
  if hit then some (true, w)
  else
    let (neutral, hit) := strikePlayer w.shots.neutral player radius w.tickCount
    let w := { w with shots := { w.shots with neutral := neutral } }
    if hit then some (true, w)
    else do
      let hit ← w.bodyContact?
      return (hit, w)

/-- The second pass. -/
def resolvePlayer? (w : World) : Option World :=
  if !w.player.isAlive || w.player.isInvulnerable then some w
  else do
    let (hit, w) ← w.findHit?
    return if hit then w.hurtPlayer else w

def resolveHits? (w : World) : Option World := do
  let w ← w.resolveEnemies?
  w.resolvePlayer?

/-! ### Stage events and spawns -/

/-- The archetype of a permitted enemy is looked up. -/
def dispatchSpawn? (timing : LegTiming) (w : World) (event : SpawnEvent) : Option World := do
  if event.condition.permits w.countedEnemies w.carryOver then
    match event.target with
    | .enemy id => guard (id.index < w.catalog.enemies.length)
    | .powerup => pure ()
  return w.dispatchSpawn timing event

/-- The entry at a place of a stage's table is looked up. -/
def dispatchAt? (timing : LegTiming) (stage : Nat) (w : World) (entry : Nat) : Option World := do
  let stage ← w.catalog.stages[stage]?
  let event ← stage.spawns[entry]?
  w.dispatchSpawn? timing event

/-- The entries that a beat hands out, by their places. -/
def dispatchDue? (w : World) (info : BeatInfo) (timing : LegTiming) : Option World :=
  match w.timeline.stage with
  | none => some w
  | some stage =>
    (List.range' info.firstSpawn (info.endSpawn - info.firstSpawn)).foldlM
      (dispatchAt? timing stage) w

/-- Everyone hears the beat with the emitters in use. -/
def broadcastBeat? (w : World) (now : Float) : Option World := do
  guard (w.enemies.items.all Enemy.fits)
  guard w.player.fits
  return w.broadcastBeat now

def onTimelineEvent? (w : World) (event : TimelineEvent Float) (now : Float) : Option World :=
  match event with
  | .stageStarted stage .. => do
    guard (stage < w.catalog.stages.length)
    return w.onTimelineEvent event now
  | .beat info => do
    let w := w.announceBeat info
    let w ← w.dispatchDue? info (w.legTiming now)
    w.broadcastBeat? now

/-! ### Ticks -/

/-- The enemies run the emitters in use. -/
def tickEnemies? (w : World) (now : Float) : Option World := do
  let cutoff := w.catalog.settings.fireCutoffHeight
  let (enemies, watch) :=
    w.enemies.sweep (fun watch enemy => enemy.tick now cutoff (watch.require enemy.fits))
      (Watch.on (w.fireControl w.livingPlayer 0))
  let fire ← watch.result?
  return { w with enemies := enemies }.adopt fire

/-- The player runs the emitters in use. -/
def workGate? (w : World) (fire : Bool) : Option World := do
  let (player, watch) :=
    w.player.handleFire fire w.catalog.settings.player
      ((Watch.on (w.fireControl w.nearestEnemy 180)).require w.player.fits)
  let fire ← watch.result?
  return { w with player := player.tickTimers }.adopt fire

def tickPlayer? (w : World) (input : TickInput) (dt : Float32) : Option World := do
  let w ← (w.setOut input.movement dt).workGate? input.fire
  return if input.bomb then w.useBomb.2 else w

def act? (w : World) (input : TickInput) (now : Float) (dt : Float32) : Option World := do
  let w ← w.tickEnemies? now
  let w ← w.tickPlayer? input dt
  ((w.tickPowerups dt).tickShots dt).resolveHits?

section Play

variable {α : Type} [AudioPlayer α Float]

def followTimeline? (w : World) (now : Float) (audio : α) : Option (World × α) := do
  let (event, timeline, audio) ← w.timeline.advance? now w.catalog.stages audio
  let w := { w with timeline := timeline }
  match event with
  | some event => do
    let w ← w.onTimelineEvent? event now
    return (w, audio)
  | none => return (w, audio)

def simulate? (w : World) (input : TickInput) (now : Float) (audio : α) (dt : Float32) :
    Option (World × α) := do
  let (w, audio) ← { w with tickCount := w.tickCount + 1 }.followTimeline? now audio
  let w ← w.act? input now dt
  return (w, audio)

def goOn? (w : World) (input : TickInput) (now : Float) (audio : α) (dt : Float32) :
    Option (World × α) :=
  if w.phase ≠ .playing then some (w, audio)
  else if !w.player.isAlive then some (w.endGame audio)
  else w.simulate? input now audio dt

/-- The first stage is looked up and announced. -/
def startGame? (w : World) (now : Float) (audio : α) : Option (World × α) := do
  let (event, timeline, audio) ← w.timeline.start? now w.catalog.stages audio
  let w := w.afresh timeline
  match event with
  | some event => do
    let w ← { w with phase := .playing }.onTimelineEvent? event now
    return (w, audio)
  | none => return ({ w with phase := .idle }, audio)

/-- One tick at a clock reading. -/
def tick? (w : World) (input : TickInput) (now : Float) (audio : α) (dt : Float32) :
    Option (World × α) :=
  if input.restart then (w.age dt).startGame? now audio
  else if input.pause then
    ((w.age dt).togglePause now audio).1.goOn? input now ((w.age dt).togglePause now audio).2 dt
  else (w.age dt).goOn? input now audio dt

/-- One call. -/
def call? (s : World × α) : Call → Option (World × α)
  | .tick input now dt => s.1.tick? input now s.2 dt
  | .startGame now => s.1.startGame? now s.2
  | c => some (call s c)

/-- The calls of a session, one after the other. -/
def play? (w : World) (audio : α) (calls : List Call) : Option (World × α) :=
  calls.foldlM call? (w, audio)

end Play

end World

end BulletHell
