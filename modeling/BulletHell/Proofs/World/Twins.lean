import BulletHell.Proofs.Actor.Recycled
import BulletHell.Proofs.World.Course

/-!
# Twin worlds

Two worlds may have come to the same state on different ways. Their pools then use different slots,
and what is left in the slots that are free is different. Such worlds are twins: they agree on
everything but the pools, and the pools are twins themselves. No phase of a tick can tell which of
the two it is in, so they stay twins.

A slot that is used again has in it what another run left there. To know that it does no harm it
must be known what a slot can hold at all, and for that what a world of this catalog can be. So
twins belong to a catalog, and a world of the catalog is one that is its own twin.

## Main definitions

* `World.Pools`, `World.withPools` — all pools of a world
* `World.Twin` — worlds of a catalog that differ in their pools at most
* `Catalog.Timed` — every leg takes time

## Main results

* `FireControl.alike_twin` — emitters fire alike in twin worlds
* `World.Twin.change` — what takes no notice of the pools
* `World.Twin.awardScore`, `hurtPlayer`, `useBomb`, `onTimelineEvent` — the operations that the
  phases of a tick share
-/

namespace BulletHell

/-- Every leg of an enemy takes time, the last one included. -/
structure Catalog.Timed (c : Catalog) : Prop where
  exit : 0 < c.settings.exitBeats
  steps : ∀ stage ∈ c.stages, ∀ event ∈ stage.spawns, ∀ route, event.route = some route →
    ∀ step ∈ route.steps, 0 < step.beats

/-- The room that a catalog gives to every slot. -/
def Settings.limits (s : Settings) : Nat × Nat :=
  (s.maxEmitters, s.maxRepeatDepth)

/-! ### Pools -/

/-- Twin pools of the same visits, where items pass for nothing but themselves. -/
theorem Pool.Twin.sweep_eq {α σ : Type} {capacity : Nat} {p p' : Pool α}
    (h : Pool.Twin Eq capacity p p') (visit : σ → α → Bool × α × σ) (state : σ) :
    Pool.Twin Eq capacity (p.sweep visit state).1 (p'.sweep visit state).1 ∧
      (p'.sweep visit state).2 = (p.sweep visit state).2 := by
  obtain ⟨hafter, hstate⟩ := h.sweep (R := Eq) .eq visit visit
    (by rintro state - a - rfl rfl; exact ⟨rfl, rfl, rfl⟩) rfl
  exact ⟨hafter, hstate.symm⟩

theorem Pool.Twin.retain_eq {α : Type} {capacity : Nat} {p p' : Pool α}
    (h : Pool.Twin Eq capacity p p') (visit : α → Bool × α) :
    Pool.Twin Eq capacity (p.retain visit) (p'.retain visit) :=
  h.retain .eq (by rintro a - rfl; exact ⟨rfl, rfl⟩)

/-- What comes into a slot does not depend on what was there. -/
theorem Pool.Twin.spawn?_eq {α : Type} {capacity : Nat} {p p' : Pool α}
    (h : Pool.Twin Eq capacity p p') (item : α) :
    (p.spawn? fun _ => item) = none ∧ (p'.spawn? fun _ => item) = none ∨
      ∃ q q', (p.spawn? fun _ => item) = some q ∧ (p'.spawn? fun _ => item) = some q' ∧
        Pool.Twin Eq capacity q q' :=
  h.spawn? _ _ fun _ _ _ _ => rfl

namespace ShotPools

/-- Twins, pool by pool. -/
structure Twin (s : Settings) (p p' : ShotPools) : Prop where
  enemy : Pool.Twin Eq s.enemyShotPool p.enemy p'.enemy
  player : Pool.Twin Eq s.playerShotPool p.player p'.player
  neutral : Pool.Twin Eq s.neutralShotPool p.neutral p'.neutral

variable {s : Settings} {p p' : ShotPools}

theorem Twin.withEnemy (h : Twin s p p') {q q' : Pool Shot}
    (hq : Pool.Twin Eq s.enemyShotPool q q') :
    Twin s { p with enemy := q } { p' with enemy := q' } :=
  ⟨hq, h.player, h.neutral⟩

theorem Twin.withPlayer (h : Twin s p p') {q q' : Pool Shot}
    (hq : Pool.Twin Eq s.playerShotPool q q') :
    Twin s { p with player := q } { p' with player := q' } :=
  ⟨h.enemy, hq, h.neutral⟩

theorem Twin.withNeutral (h : Twin s p p') {q q' : Pool Shot}
    (hq : Pool.Twin Eq s.neutralShotPool q q') :
    Twin s { p with neutral := q } { p' with neutral := q' } :=
  ⟨h.enemy, h.player, hq⟩

theorem Twin.spawn? (h : Twin s p p') (request : ShotRequest) (archetype : ShotArchetype)
    (tick : Nat) :
    p.spawn? request archetype tick = none ∧ p'.spawn? request archetype tick = none ∨
      ∃ q q', p.spawn? request archetype tick = some q ∧
        p'.spawn? request archetype tick = some q' ∧ Twin s q q' := by
  simp only [ShotPools.spawn?]
  split
  · rcases h.enemy.spawn?_eq (.ofRequest request archetype tick) with
      ⟨hnone, hnone'⟩ | ⟨q, q', hq, hq', htwin⟩
    · exact .inl ⟨by rw [hnone]; rfl, by rw [hnone']; rfl⟩
    · exact .inr ⟨_, _, by rw [hq]; rfl, by rw [hq']; rfl, h.withEnemy htwin⟩
  · rcases h.player.spawn?_eq (.ofRequest request archetype tick) with
      ⟨hnone, hnone'⟩ | ⟨q, q', hq, hq', htwin⟩
    · exact .inl ⟨by rw [hnone]; rfl, by rw [hnone']; rfl⟩
    · exact .inr ⟨_, _, by rw [hq]; rfl, by rw [hq']; rfl, h.withPlayer htwin⟩
  · rcases h.neutral.spawn?_eq (.ofRequest request archetype tick) with
      ⟨hnone, hnone'⟩ | ⟨q, q', hq, hq', htwin⟩
    · exact .inl ⟨by rw [hnone]; rfl, by rw [hnone']; rfl⟩
    · exact .inr ⟨_, _, by rw [hq]; rfl, by rw [hq']; rfl, h.withNeutral htwin⟩

theorem Twin.tick (h : Twin s p p') (dt : Float32) (tick : Nat) :
    Twin s (p.tick dt tick) (p'.tick dt tick) :=
  ⟨h.enemy.retain_eq _, h.player.retain_eq _, h.neutral.retain_eq _⟩

end ShotPools

/-! ### Fire control -/

namespace FireControl

/-- Fire controls that differ in their pools at most. -/
def Twin (s : Settings) (f f' : FireControl) : Prop :=
  ∃ shots', f' = { f with shots := shots' } ∧ ShotPools.Twin s f.shots shots'

theorem alike_twin (s : Settings) : FireContext.Alike (Twin s) where
  angle := by
    rintro f - ⟨shots', rfl, -⟩ origin
    rfl
  random := by
    rintro f - ⟨shots', rfl, hshots⟩ spread
    exact ⟨_, rfl, shots', rfl, hshots⟩
  spawn := by
    rintro f - ⟨shots', rfl, hshots⟩ request
    simp only [FireContext.spawnShot, spawnShot]
    split
    · exact ⟨shots', rfl, hshots⟩
    · next archetype _ =>
      rcases hshots.spawn? request archetype f.tick with
        ⟨hnone, hnone'⟩ | ⟨q, q', hq, hq', htwin⟩
      · rw [hnone, hnone']
        exact ⟨shots', rfl, hshots⟩
      · rw [hq, hq']
        exact ⟨q', rfl, htwin⟩

end FireControl

namespace World

/-! ### Worlds -/

/-- All pools of a world. -/
structure Pools where
  enemies : Pool Enemy
  shots : ShotPools
  effects : Pool Effect
  powerups : Pool Powerup

def pools (w : World) : Pools :=
  ⟨w.enemies, w.shots, w.effects, w.powerups⟩

/-- The world with other pools. -/
def withPools (w : World) (p : Pools) : World :=
  { w with enemies := p.enemies, shots := p.shots, effects := p.effects, powerups := p.powerups }

/-- Twins, pool by pool. -/
structure Pools.Twin (s : Settings) (p p' : Pools) : Prop where
  enemies : Pool.Twin (Enemy.Passes s.limits) s.enemyPool p.enemies p'.enemies
  shots : ShotPools.Twin s p.shots p'.shots
  effects : Pool.Twin Eq s.effectPool p.effects p'.effects
  powerups : Pool.Twin Eq s.powerupPool p.powerups p'.powerups

/-- What a catalog fixes once and for all: itself, the time before the music and the room for the
player's emitters. -/
structure Belongs (c : Catalog) (w : World) : Prop where
  catalog : w.catalog = c
  leadIn : w.timeline.leadIn = c.settings.stageLeadIn
  limits : w.player.limits = c.settings.limits

/-- Worlds of a catalog that differ in their pools at most. -/
structure Twin (c : Catalog) (w w' : World) : Prop where
  belongs : Belongs c w
  pools : ∃ p', w' = w.withPools p' ∧ Pools.Twin c.settings w.pools p'

namespace Twin

variable {c : Catalog} {w w' : World}

/-- The second of two twins is its own twin. -/
theorem right (h : Twin c w w') : Twin c w' w' := by
  obtain ⟨⟨hcatalog, hleadIn, hlimits⟩, p', rfl, henemies, hshots, heffects, hpowerups⟩ := h
  exact ⟨⟨hcatalog, hleadIn, hlimits⟩, p', rfl, henemies.right (Enemy.kinship_passes _),
    ⟨hshots.enemy.right .eq, hshots.player.right .eq, hshots.neutral.right .eq⟩,
    heffects.right .eq, hpowerups.right .eq⟩

/-- And so is the first. -/
theorem left (h : Twin c w w') : Twin c w w := by
  obtain ⟨hbelongs, p', -, henemies, hshots, heffects, hpowerups⟩ := h
  exact ⟨hbelongs, w.pools, rfl, henemies.left (Enemy.kinship_passes _),
    ⟨hshots.enemy.left .eq, hshots.player.left .eq, hshots.neutral.left .eq⟩,
    heffects.left .eq, hpowerups.left .eq⟩

/-! What twins have in common. -/

theorem catalog (h : Twin c w w') : w'.catalog = w.catalog := by
  obtain ⟨-, p', rfl, -⟩ := h
  rfl

theorem phase (h : Twin c w w') : w'.phase = w.phase := by
  obtain ⟨-, p', rfl, -⟩ := h
  rfl

theorem timeline (h : Twin c w w') : w'.timeline = w.timeline := by
  obtain ⟨-, p', rfl, -⟩ := h
  rfl

theorem player (h : Twin c w w') : w'.player = w.player := by
  obtain ⟨-, p', rfl, -⟩ := h
  rfl

theorem score (h : Twin c w w') : w'.score = w.score := by
  obtain ⟨-, p', rfl, -⟩ := h
  rfl

theorem nextExtend (h : Twin c w w') : w'.nextExtend = w.nextExtend := by
  obtain ⟨-, p', rfl, -⟩ := h
  rfl

theorem extendPending (h : Twin c w w') : w'.extendPending = w.extendPending := by
  obtain ⟨-, p', rfl, -⟩ := h
  rfl

theorem tickCount (h : Twin c w w') : w'.tickCount = w.tickCount := by
  obtain ⟨-, p', rfl, -⟩ := h
  rfl

theorem rng (h : Twin c w w') : w'.rng = w.rng := by
  obtain ⟨-, p', rfl, -⟩ := h
  rfl

theorem carryOver (h : Twin c w w') : w'.carryOver = w.carryOver := by
  obtain ⟨-, p', rfl, -⟩ := h
  rfl

theorem events (h : Twin c w w') : w'.events = w.events := by
  obtain ⟨-, p', rfl, -⟩ := h
  rfl

theorem settings (h : Twin c w w') : w'.catalog.settings = w.catalog.settings := by
  rw [h.catalog]

theorem enemy? (h : Twin c w w') : w'.catalog.enemy? = w.catalog.enemy? := by
  rw [h.catalog]

theorem powerup (h : Twin c w w') : w'.catalog.powerup = w.catalog.powerup := by
  rw [h.catalog]

theorem stages (h : Twin c w w') : w'.catalog.stages = w.catalog.stages := by
  rw [h.catalog]

theorem livingPlayer (h : Twin c w w') : w'.livingPlayer = w.livingPlayer := by
  rw [World.livingPlayer, h.player]
  rfl

theorem legTiming (h : Twin c w w') (now : Float) : w'.legTiming now = w.legTiming now := by
  rw [World.legTiming, h.timeline, h.catalog]
  rfl

/-! The pools. -/

theorem enemies (h : Twin c w w') :
    Pool.Twin (Enemy.Passes c.settings.limits) c.settings.enemyPool w.enemies w'.enemies := by
  obtain ⟨-, p', rfl, hpools⟩ := h
  exact hpools.enemies

theorem shots (h : Twin c w w') : ShotPools.Twin c.settings w.shots w'.shots := by
  obtain ⟨-, p', rfl, hpools⟩ := h
  exact hpools.shots

theorem effects (h : Twin c w w') :
    Pool.Twin Eq c.settings.effectPool w.effects w'.effects := by
  obtain ⟨-, p', rfl, hpools⟩ := h
  exact hpools.effects

theorem powerups (h : Twin c w w') :
    Pool.Twin Eq c.settings.powerupPool w.powerups w'.powerups := by
  obtain ⟨-, p', rfl, hpools⟩ := h
  exact hpools.powerups

/-- What can be read off enemies and is the same for those that pass for each other is the same in
both pools. -/
theorem map_enemies {β : Type} (h : Twin c w w') {f : Enemy → β}
    (hf : ∀ (e : Enemy) place, f (e.withNextStep place) = f e) :
    w'.enemies.items.map f = w.enemies.items.map f :=
  Enemy.map_eq_of_passes h.enemies.items fun {e _} hpasses => by
    obtain ⟨place, rfl⟩ := hpasses.same
    exact hf e place

theorem countedEnemies (h : Twin c w w') : w'.countedEnemies = w.countedEnemies := by
  have hcounted := h.map_enemies (f := Enemy.isCounted) fun _ _ => rfl
  have hcount : ∀ w : World, w.countedEnemies = (w.enemies.items.map Enemy.isCounted).countP id :=
    fun w => by rw [List.countP_map]; rfl
  rw [hcount, hcount, hcounted]

/-! What is done to both. -/

/-- Any change that takes no notice of the pools. -/
theorem change (h : Twin c w w') (f : World → World) (hbelongs : Belongs c w → Belongs c (f w))
    (hpools : (f w).pools = w.pools) (hf : ∀ p', f (w.withPools p') = (f w).withPools p') :
    Twin c (f w) (f w') := by
  obtain ⟨hw, p', rfl, htwin⟩ := h
  exact ⟨hbelongs hw, p', hf p', hpools ▸ htwin⟩

/-- One step after the other. -/
theorem foldl {β : Type} {f : World → β → World} {xs : List β}
    (hf : ∀ x ∈ xs, ∀ {w w' : World}, Twin c w w' → Twin c (f w x) (f w' x))
    (h : Twin c w w') : Twin c (xs.foldl f w) (xs.foldl f w') := by
  induction xs generalizing w w' with
  | nil => exact h
  | cons x xs ih =>
    exact ih (fun y hy => hf y (List.mem_cons_of_mem x hy)) (hf x List.mem_cons_self h)

theorem announce (h : Twin c w w') (event : GameEvent) :
    Twin c (w.announce event) (w'.announce event) :=
  h.change (fun w => w.announce event) (fun h => ⟨h.catalog, h.leadIn, h.limits⟩) rfl fun _ => rfl

theorem withPlayer (h : Twin c w w') {player : Player} (hlimits : player.limits = w.player.limits) :
    Twin c { w with player := player } { w' with player := player } :=
  h.change (fun w => { w with player := player })
    (fun h => ⟨h.catalog, h.leadIn, hlimits.trans h.limits⟩) rfl fun _ => rfl

theorem withTimeline (h : Twin c w w') {timeline : Timeline Float}
    (hleadIn : timeline.leadIn = w.timeline.leadIn) :
    Twin c { w with timeline := timeline } { w' with timeline := timeline } :=
  h.change (fun w => { w with timeline := timeline })
    (fun h => ⟨h.catalog, hleadIn.trans h.leadIn, h.limits⟩) rfl fun _ => rfl

theorem withPhase (h : Twin c w w') (phase : GamePhase) :
    Twin c { w with phase := phase } { w' with phase := phase } :=
  h.change (fun w => { w with phase := phase }) (fun h => ⟨h.catalog, h.leadIn, h.limits⟩) rfl
    fun _ => rfl

theorem withEnemies (h : Twin c w w') {enemies enemies' : Pool Enemy}
    (htwin : Pool.Twin (Enemy.Passes c.settings.limits) c.settings.enemyPool enemies enemies') :
    Twin c { w with enemies := enemies } { w' with enemies := enemies' } := by
  obtain ⟨⟨hcatalog, hleadIn, hlimits⟩, p', rfl, hpools⟩ := h
  exact ⟨⟨hcatalog, hleadIn, hlimits⟩, { p' with enemies := enemies' }, rfl, htwin, hpools.shots,
    hpools.effects, hpools.powerups⟩

theorem withShots (h : Twin c w w') {shots shots' : ShotPools}
    (htwin : ShotPools.Twin c.settings shots shots') :
    Twin c { w with shots := shots } { w' with shots := shots' } := by
  obtain ⟨⟨hcatalog, hleadIn, hlimits⟩, p', rfl, hpools⟩ := h
  exact ⟨⟨hcatalog, hleadIn, hlimits⟩, { p' with shots := shots' }, rfl, hpools.enemies, htwin,
    hpools.effects, hpools.powerups⟩

theorem withEffects (h : Twin c w w') {effects effects' : Pool Effect}
    (htwin : Pool.Twin Eq c.settings.effectPool effects effects') :
    Twin c { w with effects := effects } { w' with effects := effects' } := by
  obtain ⟨⟨hcatalog, hleadIn, hlimits⟩, p', rfl, hpools⟩ := h
  exact ⟨⟨hcatalog, hleadIn, hlimits⟩, { p' with effects := effects' }, rfl, hpools.enemies,
    hpools.shots, htwin, hpools.powerups⟩

theorem withPowerups (h : Twin c w w') {powerups powerups' : Pool Powerup}
    (htwin : Pool.Twin Eq c.settings.powerupPool powerups powerups') :
    Twin c { w with powerups := powerups } { w' with powerups := powerups' } := by
  obtain ⟨⟨hcatalog, hleadIn, hlimits⟩, p', rfl, hpools⟩ := h
  exact ⟨⟨hcatalog, hleadIn, hlimits⟩, { p' with powerups := powerups' }, rfl, hpools.enemies,
    hpools.shots, hpools.effects, htwin⟩

end Twin

end World

/-- An effect is shown in both or in none. -/
theorem showEffect_twin {capacity : Nat} {effects effects' : Pool Effect}
    (h : Pool.Twin Eq capacity effects effects') (events : Array GameEvent) (seconds : Float32)
    (kind : EffectKind) (position : Vec2) :
    (showEffect effects' events seconds kind position).2 =
        (showEffect effects events seconds kind position).2 ∧
      Pool.Twin Eq capacity (showEffect effects events seconds kind position).1
        (showEffect effects' events seconds kind position).1 := by
  simp only [showEffect]
  rcases h.spawn?_eq ⟨kind, position, seconds⟩ with ⟨hnone, hnone'⟩ | ⟨q, q', hq, hq', htwin⟩
  · rw [hnone, hnone']
    exact ⟨rfl, h⟩
  · rw [hq, hq']
    exact ⟨rfl, htwin⟩

namespace World

/-- Table entries that come due stand in a stage of the catalog. -/
theorem mem_stage_of_mem_dueSpawns {w : World} {info : BeatInfo} {event : SpawnEvent}
    (h : event ∈ w.dueSpawns info) : ∃ stage ∈ w.catalog.stages, event ∈ stage.spawns := by
  rw [dueSpawns] at h
  split at h
  · cases h
  · next stage hstage =>
    obtain ⟨i, -, hget⟩ := Option.bind_eq_some_iff.mp hstage
    exact ⟨stage, List.mem_of_getElem? hget, List.mem_of_mem_take (List.mem_of_mem_drop h)⟩

namespace Twin

variable {c : Catalog} {w w' : World}

theorem withEvents (h : Twin c w w') (events : Array GameEvent) :
    Twin c { w with events := events } { w' with events := events } :=
  h.change (fun w => { w with events := events }) (fun h => ⟨h.catalog, h.leadIn, h.limits⟩) rfl
    fun _ => rfl

theorem addEffect (h : Twin c w w') (kind : EffectKind) (position : Vec2) :
    Twin c (w.addEffect kind position) (w'.addEffect kind position) := by
  obtain ⟨hevents, heffects⟩ := showEffect_twin h.effects w.events w.catalog.settings.effectTime
    kind position
  have hadded := (h.withEffects heffects).withEvents
    (showEffect w.effects w.events w.catalog.settings.effectTime kind position).2
  rw [World.addEffect, World.addEffect, h.settings, h.events]
  dsimp only
  rw [hevents]
  exact hadded

theorem fireControl (h : Twin c w w') (target : Option Vec2) (fallbackAngle : Int) :
    FireControl.Twin c.settings (w.fireControl target fallbackAngle)
      (w'.fireControl target fallbackAngle) := by
  obtain ⟨-, p', rfl, hpools⟩ := h
  exact ⟨p'.shots, rfl, hpools.shots⟩

theorem adopt (h : Twin c w w') {f f' : FireControl} (hf : FireControl.Twin c.settings f f') :
    Twin c (w.adopt f) (w'.adopt f') := by
  obtain ⟨shots', rfl, hshots⟩ := hf
  have hrng := h.change (fun w => { w with rng := f.rng })
    (fun h => ⟨h.catalog, h.leadIn, h.limits⟩) rfl fun _ => rfl
  exact (hrng.withShots hshots).withEvents f.events

/-! ### Score, hits and bombs -/

theorem earnExtends (h : Twin c w w') (every : Nat) (pos : 0 < every) :
    Twin c (w.earnExtends every pos) (w'.earnExtends every pos) := by
  fun_induction World.earnExtends w every pos generalizing w' with
  | case1 w hle ih =>
    have hpending := h.change
      (fun w => { w with extendPending := true, nextExtend := w.nextExtend + every })
      (fun h => ⟨h.catalog, h.leadIn, h.limits⟩) rfl fun _ => rfl
    have hle' : w'.nextExtend ≤ w'.score := by rwa [h.nextExtend, h.score]
    have hevent : GameEvent.extendEarned w'.score = .extendEarned w.score := by rw [h.score]
    rw [earnExtends_eq w', if_pos hle', hevent]
    exact ih (hpending.announce _)
  | case2 w hle =>
    have hle' : ¬ w'.nextExtend ≤ w'.score := by rwa [h.nextExtend, h.score]
    rw [earnExtends_eq w', if_neg hle']
    exact h

theorem awardScore (h : Twin c w w') (points : Nat) :
    Twin c (w.awardScore points) (w'.awardScore points) := by
  have hscore := h.change (fun w => { w with score := w.score + points })
    (fun h => ⟨h.catalog, h.leadIn, h.limits⟩) rfl fun _ => rfl
  by_cases hpoints : points = 0
  · rw [World.awardScore, World.awardScore, if_pos hpoints, if_pos hpoints]
    exact h
  · rw [awardScore_eq w hpoints, awardScore_eq w' hpoints]
    simp only [h.settings]
    split
    · exact hscore.earnExtends _ _
    · exact hscore

theorem hurtPlayer (h : Twin c w w') : Twin c w.hurtPlayer w'.hurtPlayer := by
  have hplayer := h.withPlayer (w.player.limits_hit w.catalog.settings.player)
  simp only [World.hurtPlayer, h.player, h.settings]
  split
  · exact hplayer
  · exact (hplayer.announce _).addEffect _ _
  · exact (hplayer.announce _).addEffect _ _
  · exact (hplayer.announce _).addEffect _ _

theorem wipeHostileShots (h : Twin c w w') : Twin c w.wipeHostileShots w'.wipeHostileShots := by
  have hright : ∀ {capacity} {p p' : Pool Shot}, Pool.Twin Eq capacity p p' →
      Pool.Twin Eq capacity p.clear p'.clear := fun htwin => (htwin.left .eq).clear (htwin.right .eq)
  exact h.withShots ⟨hright h.shots.enemy, h.shots.player, hright h.shots.neutral⟩

theorem useBomb (h : Twin c w w') : Twin c w.useBomb.2 w'.useBomb.2 := by
  simp only [World.useBomb, h.player]
  split
  · exact h
  · split
    · exact h
    · next player hbomb =>
      have hlimits : player.limits = w.player.limits := by
        simp only [Player.useBomb?] at hbomb
        split at hbomb
        · cases hbomb
        · obtain rfl := Option.some.inj hbomb
          rfl
      exact ((h.withPlayer hlimits).wipeHostileShots.announce _).addEffect _ _

/-! ### Stage events and spawns -/

/-- An enemy comes on screen. All its legs take time. -/
theorem spawnEnemy (h : Twin c w w') {event : SpawnEvent} (id : EnemyId) {timing : LegTiming}
    (hexit : 0 < timing.exitBeats)
    (hsteps : ∀ route, event.route = some route → ∀ step ∈ route.steps, 0 < step.beats) :
    Twin c (w.spawnEnemy event id timing) (w'.spawnEnemy event id timing) := by
  simp only [World.spawnEnemy, h.enemy?]
  split
  · exact h
  · next archetype _ =>
    have hspawn := h.enemies.spawn?
      (fun e => e.spawn
        ⟨id, archetype, event.lane, event.mirrored, event.exempt, event.route⟩ timing)
      (fun e => e.spawn
        ⟨id, archetype, event.lane, event.mirrored, event.exempt, event.route⟩ timing)
      fun a b ha hb => Enemy.passes_spawn ha.limits hb.limits hexit hsteps
    rcases hspawn with ⟨hnone, hnone'⟩ | ⟨q, q', hq, hq', htwin⟩
    · simp only [hnone, hnone']
      exact h.announce _
    · simp only [hq, hq']
      exact (h.withEnemies htwin).announce _

theorem spawnPowerup (h : Twin c w w') (event : SpawnEvent) :
    Twin c (w.spawnPowerup event) (w'.spawnPowerup event) := by
  simp only [World.spawnPowerup, h.extendPending, h.player, h.powerup]
  rcases h.powerups.spawn?_eq
      (.entering event.lane (w.extendPending && w.player.shielded) w.catalog.powerup) with
    ⟨hnone, hnone'⟩ | ⟨q, q', hq, hq', htwin⟩
  · simp only [hnone, hnone']
    exact h.announce _
  · simp only [hq, hq']
    have hspent := h.change
      (fun v => { v with
        extendPending := w.extendPending && !(w.extendPending && w.player.shielded) })
      (fun h => ⟨h.catalog, h.leadIn, h.limits⟩) rfl fun _ => rfl
    have hannounced := (hspent.withPowerups htwin).announce
      (.powerupSpawned (entryPoint event) (w.extendPending && w.player.shielded))
    simpa only [h.player] using hannounced

theorem dispatchSpawn (h : Twin c w w') {timing : LegTiming} {event : SpawnEvent}
    (hexit : 0 < timing.exitBeats)
    (hsteps : ∀ route, event.route = some route → ∀ step ∈ route.steps, 0 < step.beats) :
    Twin c (w.dispatchSpawn timing event) (w'.dispatchSpawn timing event) := by
  simp only [World.dispatchSpawn, h.countedEnemies, h.carryOver]
  have hdecided := h.change (fun v =>
    { v with carryOver := event.condition.permits w.countedEnemies w.carryOver })
    (fun h => ⟨h.catalog, h.leadIn, h.limits⟩) rfl fun _ => rfl
  split
  · split
    · exact hdecided.spawnEnemy _ hexit hsteps
    · exact hdecided.spawnPowerup _
  · exact hdecided

theorem announceBeat (h : Twin c w w') (info : BeatInfo) :
    Twin c (w.announceBeat info) (w'.announceBeat info) := by
  simp only [World.announceBeat]
  split
  · exact (h.announce _).announce _
  · exact h.announce _

theorem broadcastBeat (h : Twin c w w') (now : Float) :
    Twin c (w.broadcastBeat now) (w'.broadcastBeat now) := by
  have henemies := h.enemies.update (Enemy.kinship_passes _)
    (fun e => e.onBeat (w.legTiming now)) fun he => he.onBeat _
  have hlimits : w.player.onBeat.limits = w.player.limits := rfl
  have hplayer := (h.withEnemies henemies).withPlayer hlimits
  simp only [World.broadcastBeat, h.legTiming, h.player]
  exact hplayer

theorem onTimelineEvent (hc : c.Timed) (h : Twin c w w') (event : TimelineEvent Float)
    (now : Float) : Twin c (w.onTimelineEvent event now) (w'.onTimelineEvent event now) := by
  cases event with
  | stageStarted stage loopCount start =>
    have hreset := h.change (fun w => { w with carryOver := true })
      (fun h => ⟨h.catalog, h.leadIn, h.limits⟩) rfl fun _ => rfl
    simp only [World.onTimelineEvent, h.stages]
    exact hreset.announce _
  | beat info =>
    have hbeat := h.announceBeat info
    have hdue : (w'.announceBeat info).dueSpawns info = (w.announceBeat info).dueSpawns info := by
      simp only [World.dueSpawns, hbeat.timeline, hbeat.catalog]
    have hcatalog : (w.announceBeat info).catalog = c := hbeat.belongs.catalog
    have hexit : 0 < ((w.announceBeat info).legTiming now).exitBeats := by
      rw [World.legTiming, hcatalog]
      exact hc.exit
    simp only [World.onTimelineEvent, hdue, hbeat.legTiming]
    refine broadcastBeat (foldl (fun event hevent _ _ h => ?_) hbeat) now
    obtain ⟨stage, hstage, hmem⟩ := mem_stage_of_mem_dueSpawns hevent
    rw [hcatalog] at hstage
    exact h.dispatchSpawn hexit (hc.steps stage hstage event hmem)

end Twin

end World

end BulletHell
