import BulletHell.Actor.Powerup
import BulletHell.Config.Settings
import BulletHell.Geometry.Playfield
import BulletHell.Pattern.Group

/-!
# The player

The player moves freely within the playfield, fires the emitters of the current power level
through a fire gate, and has lives, bombs and at most one shield.

## Main definitions

* `Player.load` — takes up the emitters of the power level when it has changed.
* `Player.move`, `Player.handleFire` — input.
* `Player.hit` — a hit, and what it cost.
* `Player.grant` — an orb.

## Implementation notes

Lives, bombs and power are counted in 32 bits by the game. Here they have no bound, so that an orb
does what it does in the game as long as none of them is at its highest value.
-/

namespace BulletHell

/-- What a hit did. -/
inductive HitOutcome where
  /-- Nothing, during invulnerability or after the end. -/
  | ignored
  | shieldLost
  | lifeLost
  | dead
deriving DecidableEq, Repr

structure Player where
  /-- The most emitters that fit. -/
  maxEmitters : Nat
  /-- The most loops that an emitter may have open. -/
  maxDepth : Nat
  position : Vec2
  lives : Nat
  bombs : Nat
  power : Nat
  shielded : Bool
  /-- Ticks of invulnerability left. -/
  invulnerable : Nat
  gate : FireGate
  /-- The power level whose emitters are loaded. -/
  loadedPower : Option Nat

namespace Player

/-- The player at the start of a run. -/
def initial (settings : PlayerSettings) (maxEmitters maxDepth : Nat) : Player where
  maxEmitters := maxEmitters
  maxDepth := maxDepth
  position := ⟨settings.startX, settings.startY⟩
  lives := settings.lives
  bombs := settings.bombs
  power := 0
  shielded := false
  invulnerable := 0
  gate := ⟨[], false, -1⟩
  loadedPower := none

/-- Back to the start of a run. -/
def reset (p : Player) (settings : PlayerSettings) : Player :=
  initial settings p.maxEmitters p.maxDepth

def isAlive (p : Player) : Bool :=
  0 < p.lives

def isInvulnerable (p : Player) : Bool :=
  0 < p.invulnerable

def isFiring (p : Player) : Bool :=
  p.gate.firing

def emitters (p : Player) : List Emitter :=
  p.gate.emitters

/-- Takes up the emitters of the current power level, unless they are loaded already. A burst
in progress is dropped. -/
def load (p : Player) (specs : List EmitterSpec) : Player :=
  if p.loadedPower = some p.power then p
  else
    let emitters := (specs.take p.maxEmitters).map (Emitter.ofSpec p.maxDepth false)
    { p with gate := { p.gate with emitters := emitters, firing := false },
             loadedPower := some p.power }

/-- Moves in a direction, slower while firing, and no further than the edge. -/
def move (p : Player) (direction : Vec2) (settings : PlayerSettings) (dt : Float32) : Player :=
  let speed := if p.isFiring then settings.slowSpeed else settings.fastSpeed
  let q := p.position + direction.normalizeOrZero * speed * dt
  { p with position :=
      ⟨clamp (-Playfield.halfWidth) Playfield.halfWidth q.x,
        clamp (-Playfield.halfHeight) Playfield.halfHeight q.y⟩ }

/-- Works the fire gate. A press of the button counts for a few ticks. -/
def handleFire {σ : Type} [FireContext σ] (p : Player) (fire : Bool) (settings : PlayerSettings)
    (ctx : σ) : Player × σ :=
  let gate := if fire then { p.gate with frames := settings.fireBufferFrames } else p.gate
  let (gate, ctx) := gate.tick p.position ctx
  ({ p with gate := gate }, ctx)

/-- Hears a beat. -/
def onBeat (p : Player) : Player :=
  { p with gate := { p.gate with emitters := p.gate.emitters.map Emitter.onBeat } }

/-- Counts down invulnerability. -/
def tickTimers (p : Player) : Player :=
  { p with invulnerable := p.invulnerable - 1 }

/-- Spends a bomb; `none` if there is none left. -/
def useBomb? (p : Player) : Option Player :=
  if p.bombs = 0 then none else some { p with bombs := p.bombs - 1 }

/-- Takes a hit. A shield takes it first; otherwise it costs a life and a power level. -/
def hit (p : Player) (settings : PlayerSettings) : HitOutcome × Player :=
  if !p.isAlive || p.isInvulnerable then (.ignored, p)
  else
    let p := { p with invulnerable := settings.invulnerableFrames }
    if p.shielded then (.shieldLost, { p with shielded := false })
    else
      let p := { p with lives := p.lives - 1, power := p.power - 1 }
      if p.lives = 0 then (.dead, { p with gate := { p.gate with firing := false } })
      else (.lifeLost, p)

/-- Gives the player an orb. Power and bombs are cut to their limits, also where they were
above them before. -/
def grant (p : Player) (orb : Orb) (settings : PlayerSettings) : Player :=
  match orb with
  | .shield => { p with shielded := true }
  | .extend => { p with lives := p.lives + 1 }
  | .power => { p with power := min (p.power + 1) settings.powerLimit }
  | .bomb => { p with bombs := min (p.bombs + 1) settings.bombLimit }

end Player

end BulletHell
