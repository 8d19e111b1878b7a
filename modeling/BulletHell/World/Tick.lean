import BulletHell.World.Collision
import BulletHell.World.Control

/-!
# One simulation step

A tick advances the world by one fixed step. The clock reading comes in from outside and times
everything that follows the music; other motion goes by the length of the step.

## Main definitions

* `TickInput` — what the player does in one tick.
* `World.simulate` — the phases of a tick that is played.
* `World.tick` — one tick, with restart, pause and the end of the game.

## Implementation notes

Effects go by the phase in which a tick begins: they still age in the tick that pauses the
game, and do not in the tick that resumes it.
-/

namespace BulletHell

/-- What the player does in one tick. -/
structure TickInput where
  /-- The direction of the stick, of any length. -/
  movement : Vec2 := Vec2.zero
  /-- Fire is held. -/
  fire : Bool := false
  /-- The bomb was pressed. -/
  bomb : Bool := false
  /-- Pause or resume. -/
  pause : Bool := false
  /-- Start a new run. -/
  restart : Bool := false

namespace World

/-! ### Phases of a tick -/

/-- Moves the enemies and lets them fire at the living player. -/
def tickEnemies (w : World) (now : Float) : World :=
  let cutoff := w.catalog.settings.fireCutoffHeight
  let (enemies, fire) :=
    w.enemies.sweep (fun fire enemy => enemy.tick now cutoff fire)
      (w.fireControl w.livingPlayer 0)
  { w with enemies := enemies }.adopt fire

/-- The nearer of two places; the first one if neither is nearer. -/
def nearer (origin : Vec2) (best : Option Vec2) (place : Vec2) : Option Vec2 :=
  match best with
  | none => some place
  | some b => if place.distanceSquared origin < b.distanceSquared origin then some place else best

/-- The place of the enemy nearest to the player. -/
def nearestEnemy (w : World) : Option Vec2 :=
  (w.enemies.items.map (·.position)).foldl (nearer w.player.position) none

/-- Moves the player and works the fire gate, aimed at the nearest enemy. -/
def movePlayer (w : World) (input : TickInput) (dt : Float32) : World :=
  let settings := w.catalog.settings.player
  let player := w.player.load (w.catalog.powerLevel w.player.power)
  let w := { w with player := player.move input.movement settings dt }
  let (player, fire) :=
    w.player.handleFire input.fire settings (w.fireControl w.nearestEnemy 180)
  { w with player := player.tickTimers }.adopt fire

/-- The player's phase: motion, fire, and then the bomb. -/
def tickPlayer (w : World) (input : TickInput) (dt : Float32) : World :=
  let w := w.movePlayer input dt
  if input.bomb then w.useBomb.2 else w

/-- What changes while the powerups are ticked. -/
structure Pickup where
  player : Player
  effects : Pool Effect
  events : Array GameEvent

namespace Pickup

/-- Grants an orb and announces it. -/
def collect (settings : PlayerSettings) (p : Pickup) (orb : Orb) (position : Vec2) : Pickup :=
  { p with player := p.player.grant orb settings,
           events := p.events.push (.powerupCollected orb position) }

/-- Shows that a powerup was picked up. -/
def flash (seconds : Float32) (p : Pickup) (position : Vec2) : Pickup :=
  let (effects, events) := showEffect p.effects p.events seconds .pickup position
  { p with effects := effects, events := events }

/-- Ticks one powerup. What a single orb gives is announced at the place where the powerup was
before it moved, what all three give at the orbs. -/
def visit (catalog : Catalog) (target : Option Vec2) (dt : Float32) (p : Pickup)
    (powerup : Powerup) : Bool × Powerup × Pickup :=
  let settings := catalog.settings.player
  let before := powerup.position
  let (outcome, powerup) := powerup.tick target catalog.powerup dt
  match outcome with
  | .falling => (true, powerup, p)
  | .expired => (false, powerup, p)
  | .collected orb =>
    (false, powerup,
      (p.collect settings orb before).flash catalog.settings.effectTime before)
  | .collectedAll _ =>
    let p :=
      (powerup.orbs catalog.powerup).foldl
        (fun p orb => p.collect settings orb.1 orb.2) p
    (false, powerup, p.flash catalog.settings.effectTime before)

end Pickup

/-- Moves the powerups and lets the living player collect them. -/
def tickPowerups (w : World) (dt : Float32) : World :=
  let (powerups, p) :=
    w.powerups.sweep (Pickup.visit w.catalog w.livingPlayer dt) ⟨w.player, w.effects, w.events⟩
  { w with powerups := powerups, player := p.player, effects := p.effects, events := p.events }

/-- Moves the shots. -/
def tickShots (w : World) (dt : Float32) : World :=
  { w with shots := w.shots.tick dt w.tickCount }

/-- Lets effects age. -/
def tickEffects (w : World) (dt : Float32) : World :=
  { w with effects := w.effects.retain fun effect => effect.tick dt }

/-! ### The whole tick -/

variable {α : Type} [AudioPlayer α Float]

/-- Asks the timeline for an event and follows up on it. -/
def followTimeline (w : World) (now : Float) (audio : α) : World × α :=
  let (event, timeline, audio) := w.timeline.advance now w.catalog.stages audio
  let w := { w with timeline := timeline }
  match event with
  | some event => (w.onTimelineEvent event now, audio)
  | none => (w, audio)

/-- A tick that is played: the timeline, the enemies, the player, the powerups, the shots, and
then all hits. -/
def simulate (w : World) (input : TickInput) (now : Float) (audio : α) (dt : Float32) :
    World × α :=
  let (w, audio) := { w with tickCount := w.tickCount + 1 }.followTimeline now audio
  let w := w.tickEnemies now
  let w := w.tickPlayer input dt
  let w := w.tickPowerups dt
  let w := w.tickShots dt
  (w.resolveHits, audio)

/-- The end of a run. -/
def endGame (w : World) (audio : α) : World × α :=
  let (timeline, audio) := w.timeline.stop audio
  ({ w with timeline := timeline, phase := .gameOver }.announce (.gameOver w.score), audio)

/-- Pauses a game that is running and resumes one that is paused. -/
def togglePause (w : World) (now : Float) (audio : α) : World × α :=
  match w.phase with
  | .playing => (w.pause now audio).2
  | .paused => (w.resume now audio).2
  | _ => (w, audio)

/-- One tick at a clock reading. -/
def tick (w : World) (input : TickInput) (now : Float) (audio : α) (dt : Float32) : World × α :=
  let w := if w.phase = .playing then w.tickEffects dt else w
  if input.restart then w.startGame now audio
  else
    let (w, audio) := if input.pause then w.togglePause now audio else (w, audio)
    if w.phase ≠ .playing then (w, audio)
    else if !w.player.isAlive then w.endGame audio
    else w.simulate input now audio dt

end World

end BulletHell
