import BulletHell.Actor.Player
import BulletHell.Catalog
import BulletHell.Timeline
import BulletHell.World.FireControl

/-!
# The world

One value holds the whole state of a game: the catalog it is played from, the timeline, all
pools, the player, the score and the random generator. This file has the state and the small
operations that several phases of a tick share.

## Main definitions

* `World`, `World.new` — the state, and a game that has not started.
* `World.announce`, `World.drainEvents`, `World.addEffect` — what the audience gets to know.
* `World.awardScore`, `World.hurtPlayer`, `World.useBomb` — score, hits and bombs.
-/

namespace BulletHell

/-- The phase of a game. -/
inductive GamePhase where
  /-- Nothing was started yet. -/
  | idle
  | playing
  | paused
  /-- Out of lives. -/
  | gameOver
deriving DecidableEq, Repr

structure World where
  catalog : Catalog
  phase : GamePhase
  timeline : Timeline Float
  enemies : Pool Enemy
  shots : ShotPools
  effects : Pool Effect
  powerups : Pool Powerup
  player : Player
  score : Nat
  /-- The score at which the next extend is earned. -/
  nextExtend : Nat
  /-- An extend was earned and waits for a powerup to carry it. -/
  extendPending : Bool
  /-- Ticks simulated in this run. -/
  tickCount : Nat
  rng : Pcg32
  /-- How the last spawn was decided. -/
  carryOver : Bool
  /-- What happened and was not collected yet, oldest first. -/
  events : Array GameEvent

/-- Shows an effect and announces it; a full pool drops it without a word. -/
def showEffect (effects : Pool Effect) (events : Array GameEvent) (seconds : Float32)
    (kind : EffectKind) (position : Vec2) : Pool Effect × Array GameEvent :=
  match effects.spawn? fun _ => ⟨kind, position, seconds⟩ with
  | none => (effects, events)
  | some effects => (effects, events.push (.effect kind position))

namespace World

/-- The generator at the start of a run. -/
def seededRng (catalog : Catalog) : Pcg32 :=
  Pcg32.ofSeed (UInt64.ofNat catalog.settings.seed)

/-- A game that has not started. -/
def new (catalog : Catalog) : World :=
  let s := catalog.settings
  { catalog := catalog
    phase := .idle
    timeline := .idle s.stageLeadIn
    enemies := .new s.enemyPool fun _ => .blank s.maxEmitters s.maxRepeatDepth
    shots := .new s.enemyShotPool s.playerShotPool s.neutralShotPool
    effects := .new s.effectPool fun _ => .blank
    powerups := .new s.powerupPool fun _ => .blank
    player := .initial s.player s.maxEmitters s.maxRepeatDepth
    score := 0
    nextExtend := s.extendEvery
    extendPending := false
    tickCount := 0
    rng := seededRng catalog
    carryOver := true
    events := #[] }

/-- Queues an event. -/
def announce (w : World) (event : GameEvent) : World :=
  { w with events := w.events.push event }

/-- Hands over the queued events. -/
def drainEvents (w : World) : Array GameEvent × World :=
  (w.events, { w with events := #[] })

/-- Releases everything in every pool. -/
def clearPools (w : World) : World :=
  { w with enemies := w.enemies.clear, shots := w.shots.clear, effects := w.effects.clear,
           powerups := w.powerups.clear }

/-- The active enemies that count for `noEnemiesPresent`. -/
def countedEnemies (w : World) : Nat :=
  w.enemies.items.countP Enemy.isCounted

/-- Shows an effect. -/
def addEffect (w : World) (kind : EffectKind) (position : Vec2) : World :=
  let (effects, events) :=
    showEffect w.effects w.events w.catalog.settings.effectTime kind position
  { w with effects := effects, events := events }

/-! ### Score -/

/-- Passes every threshold that the score has reached. -/
def earnExtends (w : World) (every : Nat) (pos : 0 < every) : World :=
  if w.nextExtend ≤ w.score then
    ({ w with extendPending := true, nextExtend := w.nextExtend + every }.announce
      (.extendEarned w.score)).earnExtends every pos
  else w
termination_by w.score + 1 - w.nextExtend
decreasing_by
  simp only [announce]
  omega

/-- Adds points and earns the extends that come with them. -/
def awardScore (w : World) (points : Nat) : World :=
  if points = 0 then w
  else
    let w := { w with score := w.score + points }
    if pos : 0 < w.catalog.settings.extendEvery then w.earnExtends _ pos else w

/-! ### The player -/

/-- Lets the player take a hit. -/
def hurtPlayer (w : World) : World :=
  let position := w.player.position
  let (outcome, player) := w.player.hit w.catalog.settings.player
  let w := { w with player := player }
  match outcome with
  | .ignored => w
  | .shieldLost => (w.announce (.playerHit position true)).addEffect .shieldHit position
  | .lifeLost => (w.announce (.playerHit position false)).addEffect .playerHit position
  | .dead => (w.announce (.playerDied position)).addEffect .playerHit position

/-- Removes every shot that can hurt the player. -/
def wipeHostileShots (w : World) : World :=
  { w with shots :=
      { w.shots with enemy := w.shots.enemy.clear, neutral := w.shots.neutral.clear } }

/-- Spends a bomb; `false` if there is nobody or nothing to spend it. -/
def useBomb (w : World) : Bool × World :=
  if !w.player.isAlive then (false, w)
  else
    match w.player.useBomb? with
    | none => (false, w)
    | some player =>
      let w := { w with player := player }.wipeHostileShots
      let position := w.player.position
      (true, (w.announce (.bombUsed position)).addEffect .bomb position)

end World

end BulletHell
