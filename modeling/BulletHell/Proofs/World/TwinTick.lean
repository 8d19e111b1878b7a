import BulletHell.Proofs.Timeline.Devices
import BulletHell.Proofs.World.Twins

/-!
# One tick of twins

A tick that is played, phase by phase, in twin worlds with devices that answer alike. Each phase
leaves twins behind.

## Main results

* `World.Twin.tickEnemies`, `tickPlayer`, `tickPowerups`, `tickShots`, `resolveHits` — the phases
* `World.Twin.simulate`, `World.Twin.endGame` — a tick that is played, and the last one
-/

namespace BulletHell

/-! ### Pickups -/

namespace World.Pickup

/-- Pickups that differ in the pool of effects at most. -/
structure Twin (s : Settings) (p p' : Pickup) : Prop where
  limits : p.player.limits = s.limits
  player : p'.player = p.player
  events : p'.events = p.events
  effects : Pool.Twin Eq s.effectPool p.effects p'.effects

variable {s : Settings} {p p' : Pickup}

theorem Twin.collect (h : Twin s p p') (settings : PlayerSettings) (orb : Orb)
    (position : Vec2) :
    Twin s (p.collect settings orb position) (p'.collect settings orb position) := by
  refine ⟨?_, ?_, ?_, h.effects⟩
  · exact (p.player.limits_grant orb settings).trans h.limits
  · rw [Pickup.collect, Pickup.collect, h.player]
  · rw [Pickup.collect, Pickup.collect, h.events]

theorem Twin.flash (h : Twin s p p') (seconds : Float32) (position : Vec2) :
    Twin s (p.flash seconds position) (p'.flash seconds position) := by
  obtain ⟨hevents, heffects⟩ := showEffect_twin h.effects p.events seconds .pickup position
  rw [Pickup.flash, Pickup.flash, h.events]
  exact ⟨h.limits, h.player, hevents, heffects⟩

theorem Twin.collectAll (h : Twin s p p') (settings : PlayerSettings)
    (orbs : List (Orb × Vec2)) :
    Twin s (orbs.foldl (fun p orb => p.collect settings orb.1 orb.2) p)
      (orbs.foldl (fun p orb => p.collect settings orb.1 orb.2) p') := by
  induction orbs generalizing p p' with
  | nil => exact h
  | cons orb orbs ih => exact ih (h.collect settings orb.1 orb.2)

theorem Twin.visit (h : Twin s p p') (c : Catalog) (target : Option Vec2) (dt : Float32)
    (powerup : Powerup) :
    (Pickup.visit c target dt p' powerup).1 = (Pickup.visit c target dt p powerup).1 ∧
      (Pickup.visit c target dt p powerup).2.1 = (Pickup.visit c target dt p' powerup).2.1 ∧
      Twin s (Pickup.visit c target dt p powerup).2.2 (Pickup.visit c target dt p' powerup).2.2 := by
  simp only [Pickup.visit]
  split
  · exact ⟨rfl, rfl, h⟩
  · exact ⟨rfl, rfl, h⟩
  · exact ⟨rfl, rfl, (h.collect _ _ _).flash _ _⟩
  · exact ⟨rfl, rfl, (h.collectAll _ _).flash _ _⟩

end World.Pickup

/-! ### Engagements -/

namespace Toll

/-- Tolls that differ in the pools of the fire control at most. -/
structure Twin (s : Settings) (t t' : Toll) : Prop where
  fire : FireControl.Twin s t.fire t'.fire
  contacts : t'.contacts = t.contacts
  kills : t'.kills = t.kills

theorem Twin.afterVolleys {s : Settings} {t t' : Toll} (h : Twin s t t') {shots shots' : ShotPools}
    (hshots : ShotPools.Twin s shots shots') (contacts : List (EffectKind × Vec2)) :
    Twin s { t with fire := { t.fire with shots := shots }, contacts := contacts }
      { t' with fire := { t'.fire with shots := shots' }, contacts := contacts } := by
  obtain ⟨⟨_, hfire, -⟩, -, hkills⟩ := h
  exact ⟨⟨shots', by rw [hfire], hshots⟩, rfl, hkills⟩

end Toll

namespace Skirmish

variable {s : Settings} {limits : Nat × Nat} {t t' : Toll} {e e' : Enemy}

/-- A wounded enemy, in twin worlds. -/
theorem wound_twin (k : Skirmish) (ht : Toll.Twin s t t') (he : Enemy.Passes limits e e')
    (archetype : EnemyArchetype) (damage : Float32) :
    (k.wound t' e' archetype damage).1 = (k.wound t e archetype damage).1 ∧
      Enemy.Passes limits (k.wound t e archetype damage).2.1
        (k.wound t' e' archetype damage).2.1 ∧
      Toll.Twin s (k.wound t e archetype damage).2.2 (k.wound t' e' archetype damage).2.2 := by
  have hwounded := he.takeDamage damage
  have hrevenge := Enemy.fireRevenge_alike (FireControl.alike_twin s) ht.fire
    (e.takeDamage damage).2
  obtain ⟨place, rfl⟩ := he.same
  have hdead : ((e.withNextStep place).takeDamage damage).1 = (e.takeDamage damage).1 := rfl
  have hfire : ∀ fire : FireControl,
      ((e.withNextStep place).takeDamage damage).2.fireRevenge fire =
        (e.takeDamage damage).2.fireRevenge fire := fun _ => rfl
  have hposition : ((e.withNextStep place).takeDamage damage).2.position =
      (e.takeDamage damage).2.position := rfl
  simp only [wound, hdead, hfire, hposition, ht.kills]
  split
  · exact ⟨rfl, he, ht⟩
  · split
    · exact ⟨rfl, hwounded, ht⟩
    · refine ⟨rfl, hwounded, ?_, ht.contacts, rfl⟩
      split
      · exact hrevenge
      · exact ht.fire

/-- **One enemy** that is engaged in twin worlds. -/
theorem engage_twin (k : Skirmish) (ht : Toll.Twin s t t') (he : Enemy.Passes limits e e') :
    (k.engage t' e').1 = (k.engage t e).1 ∧
      Enemy.Passes limits (k.engage t e).2.1 (k.engage t' e').2.1 ∧
      Toll.Twin s (k.engage t e).2.2 (k.engage t' e').2.2 := by
  have hsame : e'.archetype = e.archetype ∧ e'.position = e.position := by
    obtain ⟨place, rfl⟩ := he.same
    exact ⟨rfl, rfl⟩
  have hshots : ShotPools.Twin s t.fire.shots t'.fire.shots := by
    obtain ⟨⟨_, hfire, hshots⟩, -⟩ := ht
    rwa [hfire]
  simp only [engage, hsame.1, hsame.2, ht.contacts]
  split
  · exact ⟨rfl, he, ht⟩
  · next archetype _ =>
    obtain ⟨hneutral, hfirst⟩ := hshots.neutral.sweep_eq
      (Volley.meet e.position archetype k.tick) ⟨0, t.contacts⟩
    obtain ⟨hplayer, hsecond⟩ := hshots.player.sweep_eq
      (Volley.meet e.position archetype k.tick)
      ⟨0, (t.fire.shots.neutral.sweep (Volley.meet e.position archetype k.tick)
        ⟨0, t.contacts⟩).2.contacts⟩
    simp only [Volley.strike, hfirst, hsecond]
    exact k.wound_twin (ht.afterVolleys ((hshots.withNeutral hneutral).withPlayer hplayer) _) he
      archetype _

end Skirmish

namespace World

/-- A pool of shots held against the player. -/
def struck (w : World) (pool : Pool Shot) : Pool Shot × Bool :=
  strikePlayer pool w.player.position w.catalog.settings.player.hitRadius w.tickCount

theorem struck_twin (w : World) {capacity : Nat} {pool pool' : Pool Shot}
    (h : Pool.Twin Eq capacity pool pool') :
    Pool.Twin Eq capacity (w.struck pool).1 (w.struck pool').1 ∧
      (w.struck pool').2 = (w.struck pool).2 :=
  h.sweep_eq _ _

theorem findHit_eq_struck (w : World) :
    w.findHit =
      let first := { w with shots := { w.shots with enemy := (w.struck w.shots.enemy).1 } }
      let second := { w with shots :=
        { w.shots with
          enemy := (w.struck w.shots.enemy).1
          neutral := (w.struck w.shots.neutral).1 } }
      if (w.struck w.shots.enemy).2 then (true, first)
      else if (w.struck w.shots.neutral).2 then (true, second)
      else (second.bodyContact, second) :=
  rfl

namespace Twin

variable {c : Catalog} {w w' : World}

/-! ### The phases of a tick -/

theorem tickEnemies (h : Twin c w w') (now : Float) :
    Twin c (w.tickEnemies now) (w'.tickEnemies now) := by
  obtain ⟨henemies, hfire⟩ := h.enemies.sweep (R := FireControl.Twin c.settings)
    (Enemy.kinship_passes _)
    (fun fire e => e.tick now w.catalog.settings.fireCutoffHeight fire)
    (fun fire e => e.tick now w.catalog.settings.fireCutoffHeight fire)
    (fun hfire he => he.tick (FireControl.alike_twin _) hfire now _)
    (h.fireControl w.livingPlayer 0)
  simp only [World.tickEnemies, h.settings, h.livingPlayer]
  exact (h.withEnemies henemies).adopt hfire

theorem nearestEnemy (h : Twin c w w') : w'.nearestEnemy = w.nearestEnemy := by
  rw [World.nearestEnemy, h.map_enemies (f := (·.position)) fun _ _ => rfl, h.player]
  rfl

theorem setOut (h : Twin c w w') (direction : Vec2) (dt : Float32) :
    Twin c (w.setOut direction dt) (w'.setOut direction dt) := by
  have hlevel : w'.catalog.powerLevel = w.catalog.powerLevel := by
    rw [h.catalog]
  simp only [World.setOut, h.player, h.settings, hlevel]
  exact h.withPlayer (w.player.limits_load _)

theorem workGate (h : Twin c w w') (fire : Bool) :
    Twin c (w.workGate fire) (w'.workGate fire) := by
  obtain ⟨fire', hgate, hafter⟩ := Player.handleFire_alike
    (FireControl.alike_twin c.settings) (h.fireControl w.nearestEnemy 180) w.player fire
    w.catalog.settings.player
  have hlimits : ((w.player.handleFire fire w.catalog.settings.player
      (w.fireControl w.nearestEnemy 180)).1.tickTimers).limits = w.player.limits := rfl
  simp only [World.workGate, h.player, h.settings, h.nearestEnemy, hgate]
  exact (h.withPlayer hlimits).adopt hafter

theorem tickPlayer (h : Twin c w w') (input : TickInput) (dt : Float32) :
    Twin c (w.tickPlayer input dt) (w'.tickPlayer input dt) := by
  simp only [World.tickPlayer, movePlayer_eq]
  split
  · exact ((h.setOut _ dt).workGate _).useBomb
  · exact (h.setOut _ dt).workGate _

theorem tickPowerups (h : Twin c w w') (dt : Float32) :
    Twin c (w.tickPowerups dt) (w'.tickPowerups dt) := by
  have hpickup : Pickup.Twin c.settings ⟨w.player, w.effects, w.events⟩
      ⟨w'.player, w'.effects, w'.events⟩ := ⟨h.belongs.limits, h.player, h.events, h.effects⟩
  obtain ⟨hpowerups, hafter⟩ := h.powerups.sweep (R := Pickup.Twin c.settings) .eq
    (Pickup.visit w.catalog w.livingPlayer dt) (Pickup.visit w.catalog w.livingPlayer dt)
    (by rintro p p' powerup - hp rfl; exact hp.visit w.catalog w.livingPlayer dt powerup) hpickup
  have hlimits : (w.powerups.sweep (Pickup.visit w.catalog w.livingPlayer dt)
      ⟨w.player, w.effects, w.events⟩).2.player.limits = w.player.limits :=
    hafter.limits.trans h.belongs.limits.symm
  have hticked := (((h.withPowerups hpowerups).withPlayer hlimits).withEffects
    hafter.effects).withEvents (w.powerups.sweep (Pickup.visit w.catalog w.livingPlayer dt)
      ⟨w.player, w.effects, w.events⟩).2.events
  simp only [World.tickPowerups, h.catalog, h.livingPlayer, hafter.player, hafter.events]
  simpa only [h.catalog] using hticked

theorem tickShots (h : Twin c w w') (dt : Float32) :
    Twin c (w.tickShots dt) (w'.tickShots dt) := by
  have hticked := h.withShots (h.shots.tick dt w.tickCount)
  simpa only [World.tickShots, h.tickCount] using hticked

/-! ### Hits -/

theorem announceKill (h : Twin c w w') (kill : Vec2 × Nat) :
    Twin c (w.announceKill kill) (w'.announceKill kill) :=
  (h.announce _).addEffect _ _

theorem settle (h : Twin c w w') {enemies enemies' : Pool Enemy}
    (henemies : Pool.Twin (Enemy.Passes c.settings.limits) c.settings.enemyPool enemies enemies')
    {t t' : Toll} (ht : Toll.Twin c.settings t t') :
    Twin c (w.settle enemies t) (w'.settle enemies' t') := by
  have hadopted := (h.withEnemies henemies).adopt ht.fire
  have hcontacts : Twin c
      (t.contacts.reverse.foldl (fun w contact => w.addEffect contact.1 contact.2)
        ({ w with enemies := enemies }.adopt t.fire))
      (t.contacts.reverse.foldl (fun w contact => w.addEffect contact.1 contact.2)
        ({ w' with enemies := enemies' }.adopt t'.fire)) :=
    hadopted.foldl fun _ _ _ _ h => h.addEffect _ _
  simp only [World.settle, ht.contacts, ht.kills]
  exact (hcontacts.foldl fun kill _ _ _ h => h.announceKill kill).awardScore _

theorem skirmish (h : Twin c w w') : w'.skirmish = w.skirmish := by
  rw [World.skirmish, h.catalog, h.timeline, h.livingPlayer, h.tickCount]
  rfl

theorem resolveEnemies (h : Twin c w w') : Twin c w.resolveEnemies w'.resolveEnemies := by
  obtain ⟨henemies, htoll⟩ := h.enemies.sweep (R := Toll.Twin c.settings)
    (Enemy.kinship_passes _) w.skirmish.engage w.skirmish.engage
    (fun ht he => w.skirmish.engage_twin ht he)
    (⟨h.fireControl w.livingPlayer 0, rfl, rfl⟩ : Toll.Twin c.settings
      ⟨w.fireControl w.livingPlayer 0, [], []⟩ ⟨w'.fireControl w.livingPlayer 0, [], []⟩)
  rw [resolveEnemies_eq, resolveEnemies_eq, h.skirmish, h.livingPlayer]
  exact h.settle henemies htoll

theorem bodyContact (h : Twin c w w') : w'.bodyContact = w.bodyContact := by
  have htouches := h.map_enemies (f := fun e => (e.archetype, e.position)) fun _ _ => rfl
  have hany : ∀ w : World, w.bodyContact =
      (w.enemies.items.map fun e => (e.archetype, e.position)).any fun e =>
        (w.catalog.enemy? e.1).any fun archetype =>
          anyOverlap archetype.hitBoxes e.2 w.player.position
            w.catalog.settings.player.hitRadius := by
    intro w
    rw [List.any_map, World.bodyContact]
    congr
    funext e
    dsimp only [Function.comp_apply]
    cases w.catalog.enemy? e.archetype <;> rfl
  rw [hany, hany, htouches, h.catalog, h.player]

theorem findHit (h : Twin c w w') :
    w'.findHit.1 = w.findHit.1 ∧ Twin c w.findHit.2 w'.findHit.2 := by
  have hstruck : w'.struck = w.struck := by
    funext pool
    rw [World.struck, h.player, h.settings, h.tickCount]
    rfl
  obtain ⟨henemy, hhit⟩ := w.struck_twin h.shots.enemy
  obtain ⟨hneutral, hhit'⟩ := w.struck_twin h.shots.neutral
  have hfirst := h.withShots (h.shots.withEnemy henemy)
  have hsecond := h.withShots ((h.shots.withEnemy henemy).withNeutral hneutral)
  rw [findHit_eq_struck, findHit_eq_struck, hstruck]
  dsimp only
  by_cases hit : (w.struck w.shots.enemy).2 = true
  · rw [if_pos hit, if_pos (hhit.trans hit)]
    exact ⟨rfl, hfirst⟩
  · rw [if_neg hit, if_neg (hhit ▸ hit)]
    by_cases hit' : (w.struck w.shots.neutral).2 = true
    · rw [if_pos hit', if_pos (hhit'.trans hit')]
      exact ⟨rfl, hsecond⟩
    · rw [if_neg hit', if_neg (hhit' ▸ hit')]
      exact ⟨hsecond.bodyContact, hsecond⟩

theorem resolvePlayer (h : Twin c w w') : Twin c w.resolvePlayer w'.resolvePlayer := by
  obtain ⟨hhit, hafter⟩ := h.findHit
  simp only [World.resolvePlayer, h.player, hhit]
  split
  · exact h
  · split
    · exact hafter.hurtPlayer
    · exact hafter

theorem resolveHits (h : Twin c w w') : Twin c w.resolveHits w'.resolveHits :=
  h.resolveEnemies.resolvePlayer

/-! ### The whole tick -/

theorem act (h : Twin c w w') (input : TickInput) (now : Float) (dt : Float32) :
    Twin c (w.act input now dt) (w'.act input now dt) :=
  ((((h.tickEnemies now).tickPlayer input dt).tickPowerups dt).tickShots dt).resolveHits

variable {α β : Type} [AudioPlayer α Float] [AudioPlayer β Float] {R : α → β → Prop} {a : α} {b : β}

theorem followTimeline (hc : c.Timed) (h : Twin c w w') (hR : AudioPlayer.Alike R) (hab : R a b)
    (now : Float) :
    Twin c (w.followTimeline now a).1 (w'.followTimeline now b).1 ∧
      R (w.followTimeline now a).2 (w'.followTimeline now b).2 := by
  obtain ⟨b', hadvance, hb'⟩ := Timeline.advance_alike hR hab w.timeline now w.catalog.stages
  have htimeline := h.withTimeline (w.timeline.leadIn_advance now w.catalog.stages a)
  simp only [World.followTimeline, h.timeline, h.stages, hadvance]
  split
  · exact ⟨htimeline.onTimelineEvent hc _ now, hb'⟩
  · exact ⟨htimeline, hb'⟩

/-- **A tick that is played**, in both worlds. -/
theorem simulate (hc : c.Timed) (h : Twin c w w') (hR : AudioPlayer.Alike R) (hab : R a b)
    (input : TickInput) (now : Float) (dt : Float32) :
    Twin c (w.simulate input now a dt).1 (w'.simulate input now b dt).1 ∧
      R (w.simulate input now a dt).2 (w'.simulate input now b dt).2 := by
  have hcounted := h.change (fun w => { w with tickCount := w.tickCount + 1 })
    (fun h => ⟨h.catalog, h.leadIn, h.limits⟩) rfl fun _ => rfl
  obtain ⟨hfollowed, haudio⟩ := hcounted.followTimeline hc hR hab now
  rw [simulate_eq, simulate_eq]
  exact ⟨hfollowed.act input now dt, haudio⟩

theorem endGame (h : Twin c w w') (hR : AudioPlayer.Alike R) (hab : R a b) :
    Twin c (w.endGame a).1 (w'.endGame b).1 ∧ R (w.endGame a).2 (w'.endGame b).2 := by
  have hleadIn : (Timeline.idle w.timeline.leadIn).leadIn = w.timeline.leadIn := rfl
  have hstopped := (h.withTimeline hleadIn).withPhase .gameOver
  have hended := hstopped.announce (.gameOver w.score)
  simp only [World.endGame, Timeline.stop, h.timeline, h.score]
  refine ⟨?_, hR.stop hab⟩
  simpa only [World.announce, h.score] using hended

/-- What is left of a tick after restart and pause, in both worlds. -/
theorem goOn (hc : c.Timed) (h : Twin c w w') (hR : AudioPlayer.Alike R) (hab : R a b)
    (input : TickInput) (now : Float) (dt : Float32) :
    Twin c (w.goOn input now a dt).1 (w'.goOn input now b dt).1 ∧
      R (w.goOn input now a dt).2 (w'.goOn input now b dt).2 := by
  simp only [World.goOn, h.phase, h.player]
  split
  · exact ⟨h, hab⟩
  · split
    · exact h.endGame hR hab
    · exact h.simulate hc hR hab input now dt

end Twin

end World

end BulletHell
