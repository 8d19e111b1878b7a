import BulletHell.Proofs.Pool.Sweep
import BulletHell.Proofs.World.Course
import BulletHell.Proofs.World.Staging

/-!
# One tick on two stages

A tick that is played, phase by phase, in two worlds that differ in their display at most. Each
phase leaves such worlds behind, and the music is the same in both.

The passes over a pool carry part of the world along, the fire control, the player or the toll of
the hits so far. `Pool.sweep_alike` reduces each of them to a single visit.

## Main results

* `World.Alike.tickEnemies`, `tickPlayer`, `tickPowerups`, `tickShots`, `resolveHits` — the phases
* `World.Alike.simulate`, `World.Alike.endGame` — a tick that is played, and the last one
* `World.goOn_queued` — what was left in the event queue makes no difference
-/

namespace BulletHell

variable {st : Staging}

namespace World

namespace Alike

variable {w w' : World}

/-! ### The phases of a tick -/

section Follow

variable {α : Type} [AudioPlayer α Float]

theorem followTimeline (h : Alike st w w') (now : Float) (audio : α) :
    (w'.followTimeline now audio).2 = (w.followTimeline now audio).2 ∧
      Alike st (w.followTimeline now audio).1 (w'.followTimeline now audio).1 := by
  simp only [World.followTimeline, h.timeline, h.stages]
  have htimeline := h.change
    (fun v => { v with timeline := (w.timeline.advance now w.catalog.stages audio).2.1 })
    rfl rfl fun _ => rfl
  split
  · exact ⟨rfl, htimeline.onTimelineEvent _ now⟩
  · exact ⟨rfl, htimeline⟩

end Follow

theorem tickEnemies (h : Alike st w w') (now : Float) :
    Alike st (w.tickEnemies now) (w'.tickEnemies now) := by
  have hcutoff : w'.catalog.settings.fireCutoffHeight = w.catalog.settings.fireCutoffHeight := by
    rw [h.catalog]
    rfl
  have hfire := FireControl.alike st w.effects w'.effects
  obtain ⟨fire', hsweep, hafter⟩ := Pool.sweep_alike (R := FireControl.Alike st w.effects w'.effects)
    (fun hf e => Enemy.tick_alike hfire hf e now w.catalog.settings.fireCutoffHeight)
    (h.fireControl w.livingPlayer 0) w.enemies
  simp only [World.tickEnemies, hcutoff, h.livingPlayer, h.enemies, hsweep]
  exact (h.withEnemies _).adopt hafter

theorem nearestEnemy (h : Alike st w w') : w'.nearestEnemy = w.nearestEnemy := by
  rw [World.nearestEnemy, h.enemies, h.player]
  rfl

theorem setOut (h : Alike st w w') (direction : Vec2) (dt : Float32) :
    Alike st (w.setOut direction dt) (w'.setOut direction dt) := by
  have hlevel : w'.catalog.powerLevel = w.catalog.powerLevel := by
    rw [h.catalog]
    rfl
  simp only [World.setOut, h.player, h.playerSettings, hlevel]
  exact h.withPlayer _

theorem workGate (h : Alike st w w') (fire : Bool) :
    Alike st (w.workGate fire) (w'.workGate fire) := by
  obtain ⟨fire', hgate, hafter⟩ := Player.handleFire_alike
    (FireControl.alike st w.effects w'.effects) (h.fireControl w.nearestEnemy 180) w.player fire
    w.catalog.settings.player
  simp only [World.workGate, h.player, h.playerSettings, h.nearestEnemy, hgate]
  exact (h.withPlayer _).adopt hafter

theorem tickPlayer (h : Alike st w w') (input : TickInput) (dt : Float32) :
    Alike st (w.tickPlayer input dt) (w'.tickPlayer input dt) := by
  simp only [World.tickPlayer, movePlayer_eq]
  split
  · exact ((h.setOut _ dt).workGate _).useBomb
  · exact (h.setOut _ dt).workGate _

end Alike

end World

namespace World.Pickup

/-- Pickups that differ in the display at most. -/
def Alike (st : Staging) (p p' : Pickup) : Prop :=
  ∃ d' : Display, p' = { p with effects := d'.effects, events := d'.events } ∧
    st.Related ⟨p.effects, p.events⟩ d'

variable {p p' : Pickup}

theorem Alike.collect (h : Alike st p p') (settings : PlayerSettings) (orb : Orb)
    (position : Vec2) : Alike st (p.collect settings orb position) (p'.collect settings orb position) := by
  obtain ⟨d', rfl, hd⟩ := h
  exact ⟨_, rfl, st.announce hd _⟩

theorem Alike.flash (h : Alike st p p') (position : Vec2) :
    Alike st (p.flash st.seconds position) (p'.flash st.seconds' position) := by
  obtain ⟨d', rfl, hd⟩ := h
  exact ⟨_, rfl, st.addEffect hd .pickup position⟩

theorem Alike.collectAll (h : Alike st p p') (settings : PlayerSettings)
    (orbs : List (Orb × Vec2)) :
    Alike st (orbs.foldl (fun p orb => p.collect settings orb.1 orb.2) p)
      (orbs.foldl (fun p orb => p.collect settings orb.1 orb.2) p') := by
  induction orbs generalizing p p' with
  | nil => exact h
  | cons orb orbs ih => exact ih (h.collect settings orb.1 orb.2)

theorem Alike.visit {c : Catalog} (hseconds : c.settings.effectTime = st.seconds)
    (h : Alike st p p') (target : Option Vec2) (dt : Float32) (powerup : Powerup) :
    ∃ after', Pickup.visit (c.restage st) target dt p' powerup =
        ((Pickup.visit c target dt p powerup).1, (Pickup.visit c target dt p powerup).2.1,
          after') ∧
      Alike st (Pickup.visit c target dt p powerup).2.2 after' := by
  have hpowerup : (c.restage st).powerup = c.powerup := rfl
  have hplayer : (c.restage st).settings.player = c.settings.player := rfl
  have hshown : (c.restage st).settings.effectTime = st.seconds' := rfl
  simp only [Pickup.visit, hpowerup, hplayer, hshown, hseconds]
  split
  · exact ⟨p', rfl, h⟩
  · exact ⟨p', rfl, h⟩
  · exact ⟨_, rfl, (h.collect _ _ _).flash _⟩
  · exact ⟨_, rfl, (h.collectAll _ _).flash _⟩

end World.Pickup

namespace World

namespace Alike

variable {w w' : World}

theorem pickup (h : Alike st w w') :
    Pickup.Alike st ⟨w.player, w.effects, w.events⟩ ⟨w'.player, w'.effects, w'.events⟩ := by
  obtain ⟨-, d', rfl, hd⟩ := h
  exact ⟨d', rfl, hd⟩

theorem withPickup (h : Alike st w w') (powerups : Pool Powerup) {p p' : Pickup}
    (hp : Pickup.Alike st p p') :
    Alike st
      { w with powerups := powerups, player := p.player, effects := p.effects, events := p.events }
      { w' with
        powerups := powerups, player := p'.player, effects := p'.effects, events := p'.events } := by
  obtain ⟨hseconds, d', rfl, -⟩ := h
  obtain ⟨e', rfl, he⟩ := hp
  exact ⟨hseconds, e', rfl, he⟩

theorem tickPowerups (h : Alike st w w') (dt : Float32) :
    Alike st (w.tickPowerups dt) (w'.tickPowerups dt) := by
  have hvisit : ∀ {p p' : Pickup}, Pickup.Alike st p p' → ∀ powerup,
      ∃ after', Pickup.visit w'.catalog w.livingPlayer dt p' powerup =
          ((Pickup.visit w.catalog w.livingPlayer dt p powerup).1,
            (Pickup.visit w.catalog w.livingPlayer dt p powerup).2.1, after') ∧
        Pickup.Alike st (Pickup.visit w.catalog w.livingPlayer dt p powerup).2.2 after' := by
    rw [h.catalog]
    exact fun hp powerup => hp.visit h.seconds w.livingPlayer dt powerup
  obtain ⟨pickup', hsweep, hafter⟩ := Pool.sweep_alike hvisit h.pickup w.powerups
  simp only [World.tickPowerups, h.powerups, h.livingPlayer, hsweep]
  exact h.withPickup _ hafter

theorem tickShots (h : Alike st w w') (dt : Float32) :
    Alike st (w.tickShots dt) (w'.tickShots dt) :=
  h.change (fun w => w.tickShots dt) rfl rfl fun _ => rfl

end Alike

end World

/-! ### Hits -/

namespace Toll

/-- Tolls that differ in the event queue at most. -/
def Alike (st : Staging) (effects effects' : Pool Effect) (t t' : Toll) : Prop :=
  ∃ fire', t' = { t with fire := fire' } ∧ FireControl.Alike st effects effects' t.fire fire'

variable {effects effects' : Pool Effect} {t t' : Toll}

theorem Alike.shots (h : Alike st effects effects' t t') : t'.fire.shots = t.fire.shots := by
  obtain ⟨-, rfl, -, rfl, -⟩ := h
  rfl

theorem Alike.contacts (h : Alike st effects effects' t t') : t'.contacts = t.contacts := by
  obtain ⟨-, rfl, -⟩ := h
  rfl

theorem Alike.kills (h : Alike st effects effects' t t') : t'.kills = t.kills := by
  obtain ⟨-, rfl, -⟩ := h
  rfl

theorem Alike.afterVolleys (h : Alike st effects effects' t t') (shots : ShotPools)
    (contacts : List (EffectKind × Vec2)) :
    Alike st effects effects' { t with fire := { t.fire with shots := shots }, contacts := contacts }
      { t' with fire := { t'.fire with shots := shots }, contacts := contacts } := by
  obtain ⟨-, rfl, events', rfl, hdisplay⟩ := h
  exact ⟨_, rfl, events', rfl, hdisplay⟩

end Toll

namespace Skirmish

variable {effects effects' : Pool Effect} {t t' : Toll}

theorem wound_alike (s : Skirmish) (h : Toll.Alike st effects effects' t t') (enemy : Enemy)
    (archetype : EnemyArchetype) (damage : Float32) :
    ∃ after', s.wound t' enemy archetype damage =
        ((s.wound t enemy archetype damage).1, (s.wound t enemy archetype damage).2.1, after') ∧
      Toll.Alike st effects effects' (s.wound t enemy archetype damage).2.2 after' := by
  obtain ⟨fire', rfl, hfire⟩ := h
  simp only [wound]
  split
  · exact ⟨_, rfl, fire', rfl, hfire⟩
  · split
    · exact ⟨_, rfl, fire', rfl, hfire⟩
    · refine ⟨_, rfl, _, rfl, ?_⟩
      split
      · exact Enemy.fireRevenge_alike (FireControl.alike st effects effects') hfire _
      · exact hfire

/-- The same skirmish with the second settings of effects, which it does not use. -/
def restage (s : Skirmish) (st : Staging) : Skirmish :=
  { s with catalog := s.catalog.restage st }

theorem engage_alike (s : Skirmish) (h : Toll.Alike st effects effects' t t') (enemy : Enemy) :
    ∃ after', (s.restage st).engage t' enemy =
        ((s.engage t enemy).1, (s.engage t enemy).2.1, after') ∧
      Toll.Alike st effects effects' (s.engage t enemy).2.2 after' := by
  have henemy : (s.restage st).catalog.enemy? = s.catalog.enemy? := rfl
  have hmelee : (s.restage st).melee? = s.melee? := rfl
  have htick : (s.restage st).tick = s.tick := rfl
  have hwound : (s.restage st).wound = s.wound := rfl
  simp only [engage, henemy, hmelee, htick, hwound, h.shots, h.contacts]
  split
  · exact ⟨t', rfl, h⟩
  · exact wound_alike s (h.afterVolleys _ _) _ _ _

end Skirmish

namespace World

namespace Alike

variable {w w' : World}

theorem announceKill (h : Alike st w w') (kill : Vec2 × Nat) :
    Alike st (w.announceKill kill) (w'.announceKill kill) :=
  (h.announce _).addEffect _ _

theorem settle (h : Alike st w w') (enemies : Pool Enemy) {t t' : Toll}
    (ht : Toll.Alike st w.effects w'.effects t t') :
    Alike st (w.settle enemies t) (w'.settle enemies t') := by
  obtain ⟨fire', rfl, hfire⟩ := ht
  have hadopted := (h.withEnemies enemies).adopt hfire
  have hcontacts := foldl (fun h contact => h.addEffect contact.1 contact.2) hadopted
    t.contacts.reverse
  exact (foldl (fun h kill => h.announceKill kill) hcontacts t.kills.reverse).awardScore _

theorem skirmish (h : Alike st w w') : w'.skirmish = w.skirmish.restage st := by
  rw [World.skirmish, h.catalog, h.timeline, h.livingPlayer, h.tickCount]
  rfl

theorem resolveEnemies (h : Alike st w w') : Alike st w.resolveEnemies w'.resolveEnemies := by
  have hstart : Toll.Alike st w.effects w'.effects ⟨w.fireControl w.livingPlayer 0, [], []⟩
      ⟨w'.fireControl w.livingPlayer 0, [], []⟩ := ⟨_, rfl, h.fireControl _ 0⟩
  obtain ⟨toll', hsweep, hafter⟩ := Pool.sweep_alike (R := Toll.Alike st w.effects w'.effects)
    (fun ht enemy => w.skirmish.engage_alike ht enemy) hstart w.enemies
  rw [resolveEnemies_eq, resolveEnemies_eq, h.skirmish, h.livingPlayer, h.enemies, hsweep]
  exact h.settle _ hafter

theorem bodyContact (h : Alike st w w') : w'.bodyContact = w.bodyContact := by
  simp only [World.bodyContact, h.enemies, h.enemy?, h.player, h.playerSettings]

theorem findHit (h : Alike st w w') :
    w'.findHit.1 = w.findHit.1 ∧ Alike st w.findHit.2 w'.findHit.2 := by
  have hwith := fun shots : ShotPools =>
    h.change (fun w => { w with shots := shots }) rfl rfl fun _ => rfl
  have hstrike : ∀ pool, strikePlayer pool w'.player.position
      w'.catalog.settings.player.hitRadius w'.tickCount =
        strikePlayer pool w.player.position w.catalog.settings.player.hitRadius w.tickCount := by
    intro pool
    rw [h.player, h.playerSettings, h.tickCount]
  simp only [World.findHit, h.shots, hstrike]
  split
  · exact ⟨rfl, hwith _⟩
  · split
    · exact ⟨rfl, hwith _⟩
    · exact ⟨(hwith _).bodyContact, hwith _⟩

theorem resolvePlayer (h : Alike st w w') : Alike st w.resolvePlayer w'.resolvePlayer := by
  obtain ⟨hhit, hafter⟩ := h.findHit
  simp only [World.resolvePlayer, h.player, hhit]
  split
  · exact h
  · split
    · exact hafter.hurtPlayer
    · exact hafter

theorem resolveHits (h : Alike st w w') : Alike st w.resolveHits w'.resolveHits :=
  h.resolveEnemies.resolvePlayer

/-! ### The whole tick -/

theorem act (h : Alike st w w') (input : TickInput) (now : Float) (dt : Float32) :
    Alike st (w.act input now dt) (w'.act input now dt) :=
  ((((h.tickEnemies now).tickPlayer input dt).tickPowerups dt).tickShots dt).resolveHits

section Tick

variable {α : Type} [AudioPlayer α Float]

/-- **A tick that is played**, in both worlds. -/
theorem simulate (h : Alike st w w') (input : TickInput) (now : Float) (audio : α)
    (dt : Float32) :
    (w'.simulate input now audio dt).2 = (w.simulate input now audio dt).2 ∧
      Alike st (w.simulate input now audio dt).1 (w'.simulate input now audio dt).1 := by
  have hcounted := h.change (fun w => { w with tickCount := w.tickCount + 1 })
    rfl rfl fun _ => rfl
  obtain ⟨haudio, hfollowed⟩ := hcounted.followTimeline now audio
  rw [simulate_eq, simulate_eq]
  exact ⟨haudio, hfollowed.act input now dt⟩

theorem endGame (h : Alike st w w') (audio : α) :
    (w'.endGame audio).2 = (w.endGame audio).2 ∧
      Alike st (w.endGame audio).1 (w'.endGame audio).1 := by
  have hended := h.change
    (fun v => { v with timeline := (w.timeline.stop audio).1, phase := .gameOver })
    rfl rfl fun _ => rfl
  have hevent : GameEvent.gameOver w'.score = .gameOver w.score := by rw [h.score]
  simp only [World.endGame, h.timeline, hevent]
  exact ⟨trivial, hended.announce _⟩

/-- What is left of a tick after restart and pause, in both worlds. -/
theorem goOn (h : Alike st w w') (input : TickInput) (now : Float) (audio : α) (dt : Float32) :
    (w'.goOn input now audio dt).2 = (w.goOn input now audio dt).2 ∧
      Alike st (w.goOn input now audio dt).1 (w'.goOn input now audio dt).1 := by
  simp only [World.goOn, h.phase, h.player]
  split
  · exact ⟨rfl, h⟩
  · split
    · exact h.endGame audio
    · exact h.simulate input now audio dt

end Tick

end Alike

end World

/-! ### The event queue -/

/-- The event queues grew from two given ones by the same events; the effects are the same. -/
def Staging.queued (settings : Settings) (events events' : Array GameEvent) : Staging where
  seconds := settings.effectTime
  seconds' := settings.effectTime
  capacity' := settings.effectPool
  Related d d' := d'.effects = d.effects ∧
    ∃ new, d.events = events ++ new ∧ d'.events = events' ++ new
  announce := by
    rintro d d' ⟨heffects, new, hd, hd'⟩ event
    refine ⟨heffects, new.push event, ?_, ?_⟩
    · rw [Display.announce, hd, Array.push_append]
    · rw [Display.announce, hd', Array.push_append]
  addEffect := by
    rintro ⟨effects, queue⟩ ⟨effects', queue'⟩ ⟨heffects, new, hd, hd'⟩ kind position
    obtain rfl : effects' = effects := heffects
    simp only [Display.addEffect, showEffect]
    split
    · exact ⟨rfl, new, hd, hd'⟩
    · refine ⟨rfl, new.push (.effect kind position), ?_, ?_⟩
      · rw [show queue = events ++ new from hd, Array.push_append]
      · rw [show queue' = events' ++ new from hd', Array.push_append]

namespace World

variable {α : Type} [AudioPlayer α Float]

theorem catalog_goOn (w : World) (input : TickInput) (now : Float) (audio : α) (dt : Float32) :
    (w.goOn input now audio dt).1.catalog = w.catalog := by
  rw [goOn]
  split
  · rfl
  · split
    · rfl
    · exact (w.keeps_simulate input now audio dt).catalog

/-- **The event queue is only added to**, and what is in it makes no difference to what is added
or to anything else. -/
theorem goOn_queued (w : World) (events' : Array GameEvent) (input : TickInput) (now : Float)
    (audio : α) (dt : Float32) :
    ∃ new, (w.goOn input now audio dt).1.events = w.events ++ new ∧
      { w with events := events' }.goOn input now audio dt =
        ({ (w.goOn input now audio dt).1 with events := events' ++ new },
          (w.goOn input now audio dt).2) := by
  have hstart : Alike (.queued w.catalog.settings w.events events') w { w with events := events' } :=
    ⟨rfl, ⟨w.effects, events'⟩, rfl, rfl, #[], by simp [display], by simp⟩
  obtain ⟨haudio, -, d', hrestage, heffects, new, hevents, hevents'⟩ :=
    hstart.goOn input now audio dt
  refine ⟨new, hevents, Prod.ext ?_ haudio⟩
  have hcatalog : (w.goOn input now audio dt).1.catalog.restage
      (.queued w.catalog.settings w.events events') = (w.goOn input now audio dt).1.catalog := by
    rw [catalog_goOn]
    rfl
  rw [hrestage, restage, hcatalog, heffects, hevents']
  rfl

end World

end BulletHell
