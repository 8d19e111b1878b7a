import BulletHell.Geometry.Angle
import BulletHell.Geometry.Curve
import BulletHell.Geometry.Playfield
import BulletHell.Number.Binary

/-!
# Powerups

A powerup is a falling cluster of three orbs that spin around its centre: shield or extend,
power, and bomb. Touching an orb grants it. Staying near the cluster for long enough, without
a break, grants all three.

## Main definitions

* `PowerupSettings`, `Powerup` — the common settings, and one cluster.
* `Powerup.orbs` — where the orbs are.
* `Powerup.tick` — falling, spinning, charging, and what came of it.
-/

namespace BulletHell

structure PowerupSettings where
  /-- The name that spawn tables use for a powerup. -/
  name : String := "powerup"
  /-- Seconds from top to bottom. -/
  fallDuration : Float32 := 10
  /-- Seconds that the player has to stay near to collect everything. -/
  tripleDuration : Float32 := 2.5
  /-- Degrees per second with the player away. -/
  turnSpeedStart : Float32 := 180
  /-- Degrees per second when fully charged. -/
  turnSpeedEnd : Float32 := 720
  /-- Normalized height over normalized remaining time. -/
  fallCurve : Curve := .linear
  orbRadius : Float32 := 0.25
  /-- The distance of the orbs from the centre. -/
  orbDistance : Float32 := 0.5

/-- The radius within which a powerup charges. -/
def PowerupSettings.outerRadius (s : PowerupSettings) : Float32 :=
  s.orbDistance + s.orbRadius

inductive Orb where
  | shield
  | extend
  | power
  | bomb
deriving DecidableEq, Repr

/-- What a tick made of a powerup. -/
inductive PowerupOutcome where
  | falling
  /-- It fell off the bottom. -/
  | expired
  | collected (orb : Orb)
  /-- All three orbs at once. -/
  | collectedAll (extend : Bool)
deriving DecidableEq, Repr

structure Powerup where
  position : Vec2
  /-- Degrees. -/
  rotation : Float32
  /-- Seconds left to fall. -/
  fallTimer : Float32
  /-- Seconds left to stay near. -/
  tripleTimer : Float32
  /-- Carries an extend in place of a shield. -/
  hasExtend : Bool

namespace Powerup

/-- A slot that no powerup has used yet. -/
def blank : Powerup where
  position := Vec2.zero
  rotation := 0
  fallTimer := 0
  tripleTimer := 0
  hasExtend := false

/-- A powerup that enters at the top. -/
def entering (lane : Float32) (extend : Bool) (settings : PowerupSettings) : Powerup where
  position := ⟨lane, Playfield.entryHeight⟩
  rotation := 0
  fallTimer := settings.fallDuration
  tripleTimer := settings.tripleDuration
  hasExtend := extend

/-- The place of the orb at a given angle from the first one. -/
def orbPosition (p : Powerup) (settings : PowerupSettings) (degrees : Float32) : Vec2 :=
  let radians := (p.rotation + degrees) * radiansPerDegree
  p.position + (⟨radians.sin, radians.cos⟩ : Vec2) * settings.orbDistance

/-- The orbs and their places. -/
def orbs (p : Powerup) (settings : PowerupSettings) : List (Orb × Vec2) :=
  [(if p.hasExtend then .extend else .shield, p.orbPosition settings 0),
   (.power, p.orbPosition settings 120),
   (.bomb, p.orbPosition settings 240)]

/-- Moves to the height that belongs to the time left and spins. The spin is faster the more
of the charge is there. -/
def move (p : Powerup) (settings : PowerupSettings) (dt : Float32) : Powerup :=
  let t := settings.fallCurve.evaluate (p.fallTimer / settings.fallDuration)
  let height := -Playfield.entryHeight + 2 * Playfield.entryHeight * t
  let missing := clamp 0 1 (p.tripleTimer / settings.tripleDuration)
  let speed := settings.turnSpeedEnd + (settings.turnSpeedStart - settings.turnSpeedEnd) * missing
  { p with position := ⟨p.position.x, height⟩,
           rotation := remainder (p.rotation + speed * dt) 360 }

/-- Starts the charge over. -/
def discharge (p : Powerup) (settings : PowerupSettings) : Powerup :=
  { p with tripleTimer := settings.tripleDuration }

/-- The first orb that the player touches. -/
def touched (p : Powerup) (settings : PowerupSettings) (player : Vec2) : PowerupOutcome :=
  let reach := settings.orbRadius * settings.orbRadius
  match (p.orbs settings).find? fun orb => orb.2.distanceSquared player < reach with
  | some (orb, _) => .collected orb
  | none => .falling

/-- One tick. Without a player, or with one out of reach, the charge starts over. -/
def tick (p : Powerup) (player : Option Vec2) (settings : PowerupSettings) (dt : Float32) :
    PowerupOutcome × Powerup :=
  let p := { p with fallTimer := p.fallTimer - dt }
  if p.fallTimer ≤ 0 then (.expired, p)
  else
    let p := p.move settings dt
    match player with
    | none => (.falling, p.discharge settings)
    | some player =>
      let outer := settings.outerRadius
      if player.distanceSquared p.position < outer * outer then
        let p := { p with tripleTimer := p.tripleTimer - dt }
        if p.tripleTimer ≤ 0 then (.collectedAll p.hasExtend, p)
        else (p.touched settings player, p)
      else
        let p := p.discharge settings
        (p.touched settings player, p)

end Powerup

end BulletHell
