import BulletHell.Proofs.Pool.Sweep
import BulletHell.Proofs.World.Course
import BulletHell.Proofs.World.Resolution
import BulletHell.Proofs.World.Watch

/-!
# What is active is known

The places that play works with are not those that stand in the catalog but copies of them: a
spawn writes the place of its archetype into an enemy, loading writes programs into emitters, and
a program writes the place of another shot into its emitter as it runs. Each copy comes from the
catalog, so the places exist. Slots that are free may hold anything, since a spawn overwrites what
play looks at.

## Main definitions

* `Catalog.KnowsEnemy`, `Catalog.KnowsPlayer` — one enemy, and the player
* `World.Known` — every active enemy, and the player

## Main results

* `KnowsEnemy.spawn`, `KnowsEnemy.tick`, `KnowsPlayer.load`, `KnowsPlayer.handleFire`
* `Known.onTimelineEvent`, `Known.tickEnemies`, `Known.tickPlayer`, `Known.tickPowerups`,
  `Known.resolveEnemies`, `Known.resolvePlayer` — the phases of a tick
* `Known.startGame`, `Known.resume`, `Known.simulate` — the beginning of a run, the end of a
  pause, and a tick that is played
-/

namespace BulletHell

/-! ### Enemies -/

namespace Catalog

/-- The catalog has the archetype of an enemy and all shots that it may ever fire, and the enemy
uses no more emitters than it has room for. -/
structure KnowsEnemy (c : Catalog) (e : Enemy) : Prop where
  archetype : HasEnemy c.enemies e.archetype
  fires : Emitter.AllFire (HasShot c.shots) e.emitters
  fits : e.emitters.length ≤ e.maxEmitters

namespace KnowsEnemy

variable {c : Catalog} {e e' : Enemy}

theorem of_eq (h : c.KnowsEnemy e) (harchetype : e'.archetype = e.archetype)
    (hemitters : e'.emitters = e.emitters) (hroom : e'.maxEmitters = e.maxEmitters) :
    c.KnowsEnemy e' :=
  ⟨harchetype ▸ h.archetype, hemitters ▸ h.fires, by rw [hemitters, hroom]; exact h.fits⟩

theorem exists_archetype (h : c.KnowsEnemy e) : ∃ a, c.enemy? e.archetype = some a :=
  ⟨_, List.getElem?_eq_getElem h.archetype⟩

/-! Legs have nothing to do with emitters. -/

theorem startMove (h : c.KnowsEnemy e) (target : Vec2) (beats : Nat) (mirrored : Bool)
    (timing : LegTiming) : c.KnowsEnemy (e.startMove target beats mirrored timing) := by
  rw [Enemy.startMove]
  dsimp only
  split <;> exact h.of_eq rfl rfl rfl

theorem exitStage (h : c.KnowsEnemy e) (timing : LegTiming) :
    c.KnowsEnemy (e.exitStage timing) :=
  have hexiting : c.KnowsEnemy { e with exiting := true } := h.of_eq rfl rfl rfl
  hexiting.startMove _ _ _ timing

theorem takeStep (h : c.KnowsEnemy e) (timing : LegTiming) :
    c.KnowsEnemy (e.takeStep timing) := by
  rw [Enemy.takeStep]
  split
  · exact h.exitStage timing
  · refine startMove ?_ _ _ _ timing
    exact h.of_eq rfl rfl rfl

/-- An enemy that is brought on screen has the place and the emitters of its archetype. Nothing is
asked of what its slot held before. -/
theorem spawn (hc : c.Resolved) (e : Enemy) {s : EnemySpawn}
    (harchetype : c.enemy? s.id = some s.archetype) (timing : LegTiming) :
    c.KnowsEnemy (e.spawn s timing) := by
  obtain ⟨hplace, hmem⟩ := List.getElem?_eq_some_iff.mp harchetype
  have hfires := Emitter.allFire_map_ofSpec
    (hc.enemies s.archetype (hmem ▸ List.getElem_mem hplace)) e.maxDepth s.mirrored e.maxEmitters
  have hfits : ((s.archetype.emitters.take e.maxEmitters).map
      (Emitter.ofSpec e.maxDepth s.mirrored)).length ≤ e.maxEmitters := by
    rw [List.length_map]
    exact List.length_take_le _ _
  simp only [Enemy.spawn]
  split
  · refine takeStep ?_ timing
    exact ⟨hplace, hfires, hfits⟩
  · refine exitStage ?_ timing
    exact ⟨hplace, hfires, hfits⟩

theorem onBeat (h : c.KnowsEnemy e) (timing : LegTiming) : c.KnowsEnemy (e.onBeat timing) := by
  have hheard : c.KnowsEnemy { e with emitters := e.emitters.map Emitter.onBeat } :=
    ⟨h.archetype, Emitter.allFire_onBeat h.fires, by rw [List.length_map]; exact h.fits⟩
  simp only [Enemy.onBeat]
  split
  · exact hheard
  · split
    · exact hheard.of_eq rfl rfl rfl
    · refine takeStep ?_ timing
      exact hheard.of_eq rfl rfl rfl

theorem tick (h : c.KnowsEnemy e) {σ : Type} [FireContext σ] {R : σ → σ → Prop}
    (hR : FireContext.Course (HasShot c.shots) R) (now : Float) (cutoff : Float32) (ctx : σ) :
    c.KnowsEnemy (e.tick now cutoff ctx).2.1 ∧ R ctx (e.tick now cutoff ctx).2.2 := by
  obtain ⟨hfires, hkind, hcourse⟩ := Enemy.tick_course hR h.fires now cutoff ctx
  refine ⟨⟨hkind.archetype ▸ h.archetype, hfires, ?_⟩, hcourse⟩
  rw [hkind.length_emitters, hkind.maxEmitters]
  exact h.fits

/-! Hits leave the emitters of an enemy alone. -/

theorem wound {s : Skirmish} (h : s.catalog.KnowsEnemy e) (toll : Toll)
    (archetype : EnemyArchetype) (damage : Float32) :
    s.catalog.KnowsEnemy (s.wound toll e archetype damage).2.1 := by
  simp only [Skirmish.wound]
  split
  · exact h
  · split <;> exact h.of_eq rfl rfl rfl

theorem engage {s : Skirmish} (h : s.catalog.KnowsEnemy e) (toll : Toll) :
    s.catalog.KnowsEnemy (s.engage toll e).2.1 := by
  simp only [Skirmish.engage]
  split
  · exact h
  · exact h.wound _ _ _

end KnowsEnemy

/-! ### The player -/

/-- The catalog has all shots that the player may ever fire, and the player uses no more emitters
than there is room for. -/
structure KnowsPlayer (c : Catalog) (p : Player) : Prop where
  fires : Emitter.AllFire (HasShot c.shots) p.emitters
  fits : p.emitters.length ≤ p.maxEmitters

namespace KnowsPlayer

variable {c : Catalog} {p p' : Player}

theorem of_eq (h : c.KnowsPlayer p) (hemitters : p'.emitters = p.emitters)
    (hroom : p'.maxEmitters = p.maxEmitters) : c.KnowsPlayer p' :=
  ⟨hemitters ▸ h.fires, by rw [hemitters, hroom]; exact h.fits⟩

/-- A player without emitters. -/
theorem of_nil (h : p.emitters = []) : c.KnowsPlayer p := by
  refine ⟨fun e he => ?_, ?_⟩
  · rw [h] at he
    cases he
  · rw [h]
    exact Nat.zero_le _

theorem load (hc : c.Resolved) (h : c.KnowsPlayer p) (power : Nat) :
    c.KnowsPlayer (p.load (c.powerLevel power)) := by
  have hlevel : ∀ spec ∈ c.powerLevel power, spec.Fires (HasShot c.shots) := by
    intro spec hspec
    rcases c.powerLevel_mem power with hlevel | hnone
    · exact hc.powerLevels _ hlevel spec hspec
    · rw [hnone] at hspec
      cases hspec
  rw [Player.load]
  split
  · exact h
  · refine ⟨Emitter.allFire_map_ofSpec hlevel p.maxDepth false p.maxEmitters, ?_⟩
    simp only [Player.emitters, List.length_map]
    exact List.length_take_le _ _

theorem onBeat (h : c.KnowsPlayer p) : c.KnowsPlayer p.onBeat := by
  refine ⟨Emitter.allFire_onBeat h.fires, ?_⟩
  simp only [Player.onBeat, Player.emitters, List.length_map]
  exact h.fits

theorem handleFire (h : c.KnowsPlayer p) {σ : Type} [FireContext σ] {R : σ → σ → Prop}
    (hR : FireContext.Course (HasShot c.shots) R) (fire : Bool) (settings : PlayerSettings)
    (ctx : σ) :
    c.KnowsPlayer (p.handleFire fire settings ctx).1 ∧
      R ctx (p.handleFire fire settings ctx).2 := by
  obtain ⟨hfires, hlength, hcourse⟩ := Player.handleFire_course hR h.fires fire settings ctx
  exact ⟨⟨hfires, hlength ▸ h.fits⟩, hcourse⟩

theorem hit (h : c.KnowsPlayer p) (settings : PlayerSettings) :
    c.KnowsPlayer (p.hit settings).2 := by
  simp only [Player.hit]
  split
  · exact h
  · split
    · exact h.of_eq rfl rfl
    · split <;> exact h.of_eq rfl rfl

theorem grant (h : c.KnowsPlayer p) (orb : Orb) (settings : PlayerSettings) :
    c.KnowsPlayer (p.grant orb settings) := by
  cases orb <;> exact h.of_eq rfl rfl

end KnowsPlayer

end Catalog

namespace World

/-- Every active enemy is known to the catalog, and so is the player. -/
structure Known (w : World) : Prop where
  enemies : ∀ slot ∈ w.enemies.active, w.catalog.KnowsEnemy slot.item
  player : w.catalog.KnowsPlayer w.player

namespace Known

variable {w w' : World}

theorem of_eq (h : w.Known) (hcatalog : w'.catalog = w.catalog) (henemies : w'.enemies = w.enemies)
    (hplayer : w'.player = w.player) : w'.Known :=
  ⟨by rw [hcatalog, henemies]; exact h.enemies, by rw [hcatalog, hplayer]; exact h.player⟩

/-! ### Stage events and spawns -/

theorem spawnEnemy (h : w.Known) (hc : w.catalog.Resolved) (event : SpawnEvent) (id : EnemyId)
    (timing : LegTiming) : (w.spawnEnemy event id timing).Known := by
  simp only [World.spawnEnemy]
  split
  · exact h
  · next archetype harchetype =>
    split
    · exact h.of_eq rfl rfl rfl
    · next enemies henemies =>
      refine ⟨?_, h.player⟩
      cases hfree : w.enemies.free with
      | nil =>
        rw [Pool.spawn?, hfree] at henemies
        cases henemies
      | cons fresh rest =>
        rw [Pool.spawn?, hfree] at henemies
        obtain rfl := Option.some.inj henemies
        intro slot hslot
        rcases List.mem_append.mp hslot with hold | hnew
        · exact h.enemies slot hold
        · obtain rfl := List.mem_singleton.mp hnew
          exact .spawn hc fresh.item harchetype timing

theorem dispatchSpawn (h : w.Known) (hc : w.catalog.Resolved) (timing : LegTiming)
    (event : SpawnEvent) : (w.dispatchSpawn timing event).Known := by
  have hdecided : Known
      { w with carryOver := event.condition.permits w.countedEnemies w.carryOver } :=
    h.of_eq rfl rfl rfl
  simp only [World.dispatchSpawn]
  split
  · split
    · exact hdecided.spawnEnemy hc event _ timing
    · simp only [World.spawnPowerup]
      split <;> exact h.of_eq rfl rfl rfl
  · exact hdecided

theorem broadcastBeat (h : w.Known) (now : Float) : (w.broadcastBeat now).Known := by
  refine ⟨?_, h.player.onBeat⟩
  intro slot hslot
  simp only [World.broadcastBeat, Pool.update_eq] at hslot
  obtain ⟨before, hbefore, rfl⟩ := List.mem_map.mp hslot
  exact (h.enemies before hbefore).onBeat _

theorem announceBeat (h : w.Known) (info : BeatInfo) : (w.announceBeat info).Known := by
  simp only [World.announceBeat]
  split <;> exact h.of_eq rfl rfl rfl

theorem dispatchSpawns (h : w.Known) (hc : w.catalog.Resolved) (timing : LegTiming)
    (events : List SpawnEvent) : (events.foldl (World.dispatchSpawn timing) w).Known := by
  have hall := List.foldlRecOn (motive := fun w' : World => Keeps w w' ∧ w'.Known) events
    (World.dispatchSpawn timing) ⟨.refl w, h⟩ fun w' hw' event _ =>
      ⟨hw'.1.trans (keeps_dispatchSpawn timing w' event),
        hw'.2.dispatchSpawn (hw'.1.catalog ▸ hc) timing event⟩
  exact hall.2

theorem onTimelineEvent (h : w.Known) (hc : w.catalog.Resolved) (event : TimelineEvent Float)
    (now : Float) : (w.onTimelineEvent event now).Known := by
  cases event with
  | stageStarted => exact h.of_eq rfl rfl rfl
  | beat info =>
    have hannounced : (w.announceBeat info).catalog = w.catalog :=
      (w.keeps_announceBeat info).catalog
    exact ((h.announceBeat info).dispatchSpawns (hannounced ▸ hc) _ _).broadcastBeat now

/-! ### The phases of a tick -/

theorem tickEnemies (h : w.Known) (now : Float) : (w.tickEnemies now).Known := by
  have hswept := Pool.sweep_course (P := w.catalog.KnowsEnemy)
    (R := fun _ _ : FireControl => True) (fun _ => trivial) (fun _ _ => trivial)
    (fun fire e => e.tick now w.catalog.settings.fireCutoffHeight fire)
    (fun fire e he => he.tick (.top _) now w.catalog.settings.fireCutoffHeight fire) w.enemies
    h.enemies (w.fireControl w.livingPlayer 0)
  exact ⟨hswept.1, h.player⟩

theorem setOut (h : w.Known) (hc : w.catalog.Resolved) (direction : Vec2) (dt : Float32) :
    (w.setOut direction dt).Known :=
  ⟨h.enemies, (Catalog.KnowsPlayer.load hc h.player w.player.power).of_eq rfl rfl⟩

theorem workGate (h : w.Known) (fire : Bool) : (w.workGate fire).Known :=
  ⟨h.enemies, (h.player.handleFire (.top _) fire _ _).1.of_eq rfl rfl⟩

theorem useBomb (h : w.Known) : w.useBomb.2.Known := by
  simp only [World.useBomb]
  split
  · exact h
  · split
    · exact h
    · next player hplayer =>
      refine ⟨h.enemies, ?_⟩
      rw [Player.useBomb?] at hplayer
      split at hplayer
      · cases hplayer
      · obtain rfl := Option.some.inj hplayer
        exact h.player.of_eq rfl rfl

theorem tickPlayer (h : w.Known) (hc : w.catalog.Resolved) (input : TickInput) (dt : Float32) :
    (w.tickPlayer input dt).Known := by
  have hmoved : (w.movePlayer input dt).Known :=
    (h.setOut hc input.movement dt).workGate input.fire
  simp only [World.tickPlayer]
  split
  · exact hmoved.useBomb
  · exact hmoved

theorem tickPowerups (h : w.Known) (dt : Float32) : (w.tickPowerups dt).Known := by
  have hcollect : ∀ (p : Pickup) orb position, w.catalog.KnowsPlayer p.player →
      w.catalog.KnowsPlayer (p.collect w.catalog.settings.player orb position).player :=
    fun p orb position hp => hp.grant orb _
  have hall : ∀ (orbs : List (Orb × Vec2)) (p : Pickup), w.catalog.KnowsPlayer p.player →
      w.catalog.KnowsPlayer (orbs.foldl
        (fun p orb => p.collect w.catalog.settings.player orb.1 orb.2) p).player :=
    fun orbs p hp => List.foldlRecOn
      (motive := fun p' : Pickup => w.catalog.KnowsPlayer p'.player) orbs _ hp
      fun p' hp' orb _ => hcollect p' orb.1 orb.2 hp'
  have hvisit : ∀ (p : Pickup) powerup, w.catalog.KnowsPlayer p.player →
      w.catalog.KnowsPlayer (p.visit w.catalog w.livingPlayer dt powerup).2.2.player := by
    intro p powerup hp
    simp only [Pickup.visit]
    split
    · exact hp
    · exact hp
    · exact hcollect p _ powerup.position hp
    · exact hall _ p hp
  have hswept := Pool.sweep_course (P := fun _ => True)
    (R := fun p p' : Pickup => w.catalog.KnowsPlayer p.player → w.catalog.KnowsPlayer p'.player)
    (fun _ hp => hp) (fun h h' hp => h' (h hp))
    (Pickup.visit w.catalog w.livingPlayer dt)
    (fun p powerup _ => ⟨trivial, hvisit p powerup⟩) w.powerups (fun _ _ => trivial)
    ⟨w.player, w.effects, w.events⟩
  exact ⟨h.enemies, hswept.2 h.player⟩

theorem resolveEnemies (h : w.Known) : w.resolveEnemies.Known := by
  have hswept := Pool.sweep_course (P := w.catalog.KnowsEnemy) (R := fun _ _ : Toll => True)
    (fun _ => trivial) (fun _ _ => trivial) w.skirmish.engage
    (fun toll e he => ⟨he.engage (s := w.skirmish) toll, trivial⟩) w.enemies h.enemies
    ⟨w.fireControl w.livingPlayer 0, [], []⟩
  have haside := w.aside_resolveEnemies
  have hkeeps : Keeps w w.resolveEnemies := w.keeps_settle _ _
  refine ⟨?_, ?_⟩
  · rw [hkeeps.catalog, haside.enemies]
    exact hswept.1
  · rw [hkeeps.catalog, haside.player]
    exact h.player

theorem hurtPlayer (h : w.Known) : w.hurtPlayer.Known := by
  have hhit : Known { w with player := (w.player.hit w.catalog.settings.player).2 } :=
    ⟨h.enemies, h.player.hit _⟩
  simp only [World.hurtPlayer]
  split <;> exact hhit.of_eq rfl rfl rfl

theorem resolvePlayer (h : w.Known) : w.resolvePlayer.Known := by
  have hfound : w.findHit.2.Known := by
    simp only [World.findHit]
    split
    · exact h.of_eq rfl rfl rfl
    · split <;> exact h.of_eq rfl rfl rfl
  simp only [World.resolvePlayer]
  split
  · exact h
  · split
    · exact hfound.hurtPlayer
    · exact hfound

theorem act (h : w.Known) (hc : w.catalog.Resolved) (input : TickInput) (now : Float)
    (dt : Float32) : (w.act input now dt).Known := by
  have hfired := h.tickEnemies now
  have hcatalog : (w.tickEnemies now).catalog = w.catalog := (w.keeps_tickEnemies now).catalog
  have hflown : ((((w.tickEnemies now).tickPlayer input dt).tickPowerups dt).tickShots dt).Known :=
    ((hfired.tickPlayer (hcatalog ▸ hc) input dt).tickPowerups dt).of_eq rfl rfl rfl
  exact hflown.resolveEnemies.resolvePlayer

/-! ### Runs -/

/-- At the beginning of a run there are no enemies, and the player has not taken up emitters. -/
theorem afresh (w : World) (timeline : Timeline Float) : (w.afresh timeline).Known :=
  ⟨fun _ hslot => (by cases hslot), .of_nil rfl⟩

variable {α : Type} [AudioPlayer α Float]

theorem resume (h : w.Known) (now : Float) (audio : α) :
    (w.resume now audio).2.1.Known := by
  rcases w.resume_cases now audio with hnone | ⟨hpaused, since, hstate⟩
  · rw [hnone]
    exact h
  · rw [resume_eq hpaused hstate]
    refine ⟨?_, h.player⟩
    intro slot hslot
    simp only [Pool.update_eq] at hslot
    obtain ⟨before, hbefore, rfl⟩ := List.mem_map.mp hslot
    exact (h.enemies before hbefore).of_eq rfl rfl rfl

theorem followTimeline (h : w.Known) (hc : w.catalog.Resolved) (now : Float) (audio : α) :
    (w.followTimeline now audio).1.Known := by
  have hadvanced : Known
      { w with timeline := (w.timeline.advance now w.catalog.stages audio).2.1 } :=
    h.of_eq rfl rfl rfl
  simp only [World.followTimeline]
  split
  · exact hadvanced.onTimelineEvent hc _ now
  · exact hadvanced

theorem simulate (h : w.Known) (hc : w.catalog.Resolved) (input : TickInput) (now : Float)
    (audio : α) (dt : Float32) : (w.simulate input now audio dt).1.Known := by
  have hcounted : Known { w with tickCount := w.tickCount + 1 } := h.of_eq rfl rfl rfl
  have hcatalog := (keeps_followTimeline { w with tickCount := w.tickCount + 1 } now audio).catalog
  rw [simulate_eq]
  exact (hcounted.followTimeline hc now audio).act (hcatalog.symm ▸ hc) input now dt

theorem startGame (hc : w.catalog.Resolved) (now : Float) (audio : α) :
    (w.startGame now audio).1.Known := by
  have hbegun := afresh w (w.timeline.start now w.catalog.stages audio).2.1
  rw [startGame_eq]
  split
  · next event _ =>
    have hplaying : Known { w.afresh (w.timeline.start now w.catalog.stages audio).2.1 with
        phase := .playing } := hbegun.of_eq rfl rfl rfl
    exact hplaying.onTimelineEvent hc event now
  · exact hbegun.of_eq rfl rfl rfl

end Known

end World

end BulletHell
