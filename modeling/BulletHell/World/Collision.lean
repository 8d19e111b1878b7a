import BulletHell.World.State

/-!
# Hits

Once per tick all hits are resolved, in a fixed order that can be seen from outside. First
come the enemies, in order of activation: each meets the neutral shots, the player's shots and
the player's body. Shields are tested before anything that hurts. Then comes the player, who
meets the enemies' shots, the neutral shots and the enemies' bodies, and takes at most one hit.

Enemies come first so that a shot spent on an enemy cannot reach the player in the same tick.

## Main definitions

* `shotContact` — what a shot does to an enemy.
* `Volley.strike` — one pool of shots against one enemy.
* `World.resolveEnemies`, `World.resolvePlayer`, `World.resolveHits` — the two passes.
-/

namespace BulletHell

/-- What a shot does to an enemy. -/
inductive ShotContact where
  | miss
  /-- Absorbed without damage. -/
  | shielded
  | hurt
deriving DecidableEq, Repr

/-- The contact of a shot with an enemy at a given place, shield first. -/
def shotContact (shot : Shot) (enemy : Vec2) (archetype : EnemyArchetype) : ShotContact :=
  if anyOverlap archetype.shieldBoxes enemy shot.position shot.radius then .shielded
  else if anyOverlap archetype.hurtBoxes enemy shot.position shot.radius then .hurt
  else .miss

/-! ### Shots against one enemy -/

/-- What the shots of a pool have done to one enemy so far. -/
structure Volley where
  damage : Float32
  /-- The contacts, newest first. -/
  contacts : List (EffectKind × Vec2)

namespace Volley

/-- One shot against an enemy: whether it flies on, and the contact it adds. Fresh shots fly
on. -/
def meet (enemy : Vec2) (archetype : EnemyArchetype) (tick : Nat) (v : Volley) (shot : Shot) :
    Bool × Shot × Volley :=
  if shot.isFresh tick then (true, shot, v)
  else
    match shotContact shot enemy archetype with
    | .miss => (true, shot, v)
    | .shielded =>
      (false, shot, { v with contacts := (.shieldHit, shot.position) :: v.contacts })
    | .hurt =>
      (false, shot, ⟨v.damage + shot.damage, (.hurtHit, shot.position) :: v.contacts⟩)

/-- A pool of shots against an enemy. The shots that touch it are spent. -/
def strike (pool : Pool Shot) (enemy : Vec2) (archetype : EnemyArchetype) (tick : Nat)
    (contacts : List (EffectKind × Vec2)) : Pool Shot × Volley :=
  pool.sweep (meet enemy archetype tick) ⟨0, contacts⟩

end Volley

/-! ### The first pass -/

/-- What stays the same while the enemies are resolved. -/
structure Skirmish where
  catalog : Catalog
  /-- Killed enemies fire back. -/
  revenge : Bool
  /-- The living player. -/
  player : Option Vec2
  tick : Nat

/-- What changes while the enemies are resolved. -/
structure Toll where
  fire : FireControl
  /-- The contacts of all shots, newest first. -/
  contacts : List (EffectKind × Vec2)
  /-- The places and scores of all kills, newest first. -/
  kills : List (Vec2 × Nat)

namespace Skirmish

/-- The damage that the player's body does. -/
def melee? (s : Skirmish) (enemy : Vec2) (archetype : EnemyArchetype) : Option Float32 :=
  let radius := s.catalog.settings.player.hitRadius
  match s.player with
  | none => none
  | some player =>
    if !anyOverlap archetype.shieldBoxes enemy player radius &&
        anyOverlap archetype.hurtBoxes enemy player radius then
      some s.catalog.settings.meleeDamage
    else none

/-- Damages an enemy. A kill is noted, and answered with fire in later loops. -/
def wound (s : Skirmish) (toll : Toll) (enemy : Enemy) (archetype : EnemyArchetype)
    (damage : Float32) : Bool × Enemy × Toll :=
  if damage ≤ 0 then (true, enemy, toll)
  else
    let (dead, enemy) := enemy.takeDamage damage
    if !dead then (true, enemy, toll)
    else
      let fire := if s.revenge then enemy.fireRevenge toll.fire else toll.fire
      (false, enemy,
        { toll with fire := fire, kills := (enemy.position, archetype.score) :: toll.kills })

/-- One enemy against neutral shots, the player's shots and the player's body. -/
def engage (s : Skirmish) (toll : Toll) (enemy : Enemy) : Bool × Enemy × Toll :=
  match s.catalog.enemy? enemy.archetype with
  | none => (true, enemy, toll)
  | some archetype =>
    let shots := toll.fire.shots
    let (neutral, first) :=
      Volley.strike shots.neutral enemy.position archetype s.tick toll.contacts
    let (player, second) :=
      Volley.strike shots.player enemy.position archetype s.tick first.contacts
    let damage := first.damage + second.damage
    let damage :=
      match s.melee? enemy.position archetype with
      | some melee => damage + melee
      | none => damage
    let shots := { shots with neutral := neutral, player := player }
    let toll :=
      { toll with fire := { toll.fire with shots := shots }, contacts := second.contacts }
    s.wound toll enemy archetype damage

end Skirmish

namespace World

/-- The place of the player, while alive. -/
def livingPlayer (w : World) : Option Vec2 :=
  if w.player.isAlive then some w.player.position else none

/-- The fire control of this tick, aimed at a target. -/
def fireControl (w : World) (target : Option Vec2) (fallbackAngle : Int) : FireControl where
  target := target
  fallbackAngle := fallbackAngle
  archetypes := w.catalog.shots
  shots := w.shots
  rng := w.rng
  events := w.events
  tick := w.tickCount

/-- Takes back what fire control may have changed. -/
def adopt (w : World) (f : FireControl) : World :=
  { w with shots := f.shots, rng := f.rng, events := f.events }

/-- Announces a kill. -/
def announceKill (w : World) (kill : Vec2 × Nat) : World :=
  (w.announce (.enemyKilled kill.1 kill.2)).addEffect .kill kill.1

/-- The first pass: all that can hurt enemies. Contacts are shown before kills, and the points
are awarded together at the end. -/
def resolveEnemies (w : World) : World :=
  let skirmish : Skirmish :=
    { catalog := w.catalog
      revenge := w.catalog.settings.revengeFromLoop ≤ w.timeline.loopCount
      player := w.livingPlayer
      tick := w.tickCount }
  let (enemies, toll) := w.enemies.sweep skirmish.engage ⟨w.fireControl w.livingPlayer 0, [], []⟩
  let kills := toll.kills.reverse
  let w := { w with enemies := enemies }.adopt toll.fire
  let w := toll.contacts.reverse.foldl (fun w contact => w.addEffect contact.1 contact.2) w
  let w := kills.foldl announceKill w
  w.awardScore (kills.foldl (fun points kill => points + kill.2) 0)

/-! ### The second pass -/

/-- One shot against the player; only the first one that touches is spent. -/
def meetPlayer (player : Vec2) (radius : Float32) (tick : Nat) (hit : Bool) (shot : Shot) :
    Bool × Shot × Bool :=
  if hit || shot.isFresh tick then (true, shot, hit)
  else if circlesOverlap shot.position shot.radius player radius then (false, shot, true)
  else (true, shot, false)

/-- A pool of shots against the player. The answer is whether one of them hit. -/
def strikePlayer (pool : Pool Shot) (player : Vec2) (radius : Float32) (tick : Nat) :
    Pool Shot × Bool :=
  pool.sweep (meetPlayer player radius tick) false

/-- Does any enemy's body touch the player? -/
def bodyContact (w : World) : Bool :=
  w.enemies.items.any fun enemy =>
    match w.catalog.enemy? enemy.archetype with
    | none => false
    | some archetype =>
      anyOverlap archetype.hitBoxes enemy.position w.player.position
        w.catalog.settings.player.hitRadius

/-- Looks for the one hit on the player, and spends the shot that delivers it. -/
def findHit (w : World) : Bool × World :=
  let player := w.player.position
  let radius := w.catalog.settings.player.hitRadius
  let (enemy, hit) := strikePlayer w.shots.enemy player radius w.tickCount
  let w := { w with shots := { w.shots with enemy := enemy } }
  if hit then (true, w)
  else
    let (neutral, hit) := strikePlayer w.shots.neutral player radius w.tickCount
    let w := { w with shots := { w.shots with neutral := neutral } }
    if hit then (true, w) else (w.bodyContact, w)

/-- The second pass: all that can hurt the player. -/
def resolvePlayer (w : World) : World :=
  if !w.player.isAlive || w.player.isInvulnerable then w
  else
    let (hit, w) := w.findHit
    if hit then w.hurtPlayer else w

/-- Both passes. -/
def resolveHits (w : World) : World :=
  w.resolveEnemies.resolvePlayer

end World

end BulletHell
