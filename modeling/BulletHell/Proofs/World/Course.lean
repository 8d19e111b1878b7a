import BulletHell.Proofs.World.Phases

/-!
# What a tick leaves alone

The catalog never changes. The phase of the game and the timeline are changed by the few
operations that control a run, and ticks are counted in one place. Everything else that happens
in a tick leaves these four as they are.

## Main definitions

* `World.Keeps` — these four are the same in two worlds

## Main results

* `World.keeps_onTimelineEvent`, `keeps_tickEnemies`, `keeps_tickPlayer`, `keeps_tickPowerups`,
  `keeps_tickShots`, `keeps_resolveHits` — the phases of a tick
* `World.keeps_simulate` — a tick that is played: the timeline has advanced, one more tick is
  counted, and that is all
-/

namespace BulletHell

namespace World

/-- What happened between the two worlds touched neither the control of the run nor the count of
its ticks. -/
structure Keeps (w w' : World) : Prop where
  catalog : w'.catalog = w.catalog
  phase : w'.phase = w.phase
  timeline : w'.timeline = w.timeline
  tickCount : w'.tickCount = w.tickCount

theorem Keeps.refl (w : World) : Keeps w w :=
  ⟨rfl, rfl, rfl, rfl⟩

theorem Keeps.trans {w w' w'' : World} (h : Keeps w w') (h' : Keeps w' w'') : Keeps w w'' :=
  ⟨h'.catalog.trans h.catalog, h'.phase.trans h.phase, h'.timeline.trans h.timeline,
    h'.tickCount.trans h.tickCount⟩

theorem keeps_foldl {β : Type} {f : World → β → World} (hf : ∀ w x, Keeps w (f w x)) (w : World)
    (xs : List β) : Keeps w (xs.foldl f w) :=
  List.foldlRecOn xs f (.refl w) fun w' h x _ => h.trans (hf w' x)

theorem keeps_announce (w : World) (event : GameEvent) : Keeps w (w.announce event) :=
  ⟨rfl, rfl, rfl, rfl⟩

theorem keeps_addEffect (w : World) (kind : EffectKind) (position : Vec2) :
    Keeps w (w.addEffect kind position) :=
  ⟨rfl, rfl, rfl, rfl⟩

theorem keeps_tickEffects (w : World) (dt : Float32) : Keeps w (w.tickEffects dt) :=
  ⟨rfl, rfl, rfl, rfl⟩

/-! ### Score, hits and bombs -/

theorem keeps_earnExtends (w : World) (every : Nat) (pos : 0 < every) :
    Keeps w (w.earnExtends every pos) := by
  fun_induction World.earnExtends w every pos with
  | case1 w _ ih =>
    refine Keeps.trans ?_ ih
    exact ⟨rfl, rfl, rfl, rfl⟩
  | case2 w => exact .refl w

theorem keeps_awardScore (w : World) (points : Nat) : Keeps w (w.awardScore points) := by
  by_cases hpoints : points = 0
  · rw [awardScore, if_pos hpoints]
    exact .refl w
  · rw [awardScore_eq w hpoints]
    split
    · refine Keeps.trans ?_ (keeps_earnExtends _ _ _)
      exact ⟨rfl, rfl, rfl, rfl⟩
    · exact ⟨rfl, rfl, rfl, rfl⟩

theorem keeps_hurtPlayer (w : World) : Keeps w w.hurtPlayer := by
  obtain ⟨player, effects, events, hhurt⟩ := w.exists_hurtPlayer_eq
  rw [hhurt]
  exact ⟨rfl, rfl, rfl, rfl⟩

theorem keeps_useBomb (w : World) : Keeps w w.useBomb.2 := by
  simp only [useBomb]
  split
  · exact .refl w
  · split
    · exact .refl w
    · exact ⟨rfl, rfl, rfl, rfl⟩

/-! ### Stage events and spawns -/

theorem keeps_spawnEnemy (w : World) (event : SpawnEvent) (id : EnemyId) (timing : LegTiming) :
    Keeps w (w.spawnEnemy event id timing) := by
  simp only [spawnEnemy]
  split
  · exact .refl w
  · split
    · exact w.keeps_announce _
    · exact ⟨rfl, rfl, rfl, rfl⟩

theorem keeps_spawnPowerup (w : World) (event : SpawnEvent) : Keeps w (w.spawnPowerup event) := by
  simp only [spawnPowerup]
  split
  · exact w.keeps_announce _
  · exact ⟨rfl, rfl, rfl, rfl⟩

theorem keeps_dispatchSpawn (timing : LegTiming) (w : World) (event : SpawnEvent) :
    Keeps w (w.dispatchSpawn timing event) := by
  have hdecided : ∀ permitted, Keeps w { w with carryOver := permitted } :=
    fun _ => ⟨rfl, rfl, rfl, rfl⟩
  simp only [dispatchSpawn]
  split
  · split
    · exact (hdecided _).trans (keeps_spawnEnemy _ _ _ _)
    · exact (hdecided _).trans (keeps_spawnPowerup _ _)
  · exact hdecided _

theorem keeps_announceBeat (w : World) (info : BeatInfo) : Keeps w (w.announceBeat info) := by
  simp only [announceBeat]
  split <;> exact ⟨rfl, rfl, rfl, rfl⟩

theorem keeps_broadcastBeat (w : World) (now : Float) : Keeps w (w.broadcastBeat now) :=
  ⟨rfl, rfl, rfl, rfl⟩

theorem keeps_onTimelineEvent (w : World) (event : TimelineEvent Float) (now : Float) :
    Keeps w (w.onTimelineEvent event now) := by
  cases event with
  | stageStarted => exact ⟨rfl, rfl, rfl, rfl⟩
  | beat info =>
    have hspawned := keeps_foldl (keeps_dispatchSpawn ((w.announceBeat info).legTiming now))
      (w.announceBeat info) ((w.announceBeat info).dueSpawns info)
    exact ((w.keeps_announceBeat info).trans hspawned).trans (keeps_broadcastBeat _ now)

/-! ### The phases of a tick -/

theorem keeps_tickEnemies (w : World) (now : Float) : Keeps w (w.tickEnemies now) :=
  ⟨rfl, rfl, rfl, rfl⟩

theorem keeps_tickPlayer (w : World) (input : TickInput) (dt : Float32) :
    Keeps w (w.tickPlayer input dt) := by
  have hmoved : Keeps w (w.movePlayer input dt) := ⟨rfl, rfl, rfl, rfl⟩
  simp only [tickPlayer]
  split
  · exact hmoved.trans (keeps_useBomb _)
  · exact hmoved

theorem keeps_tickPowerups (w : World) (dt : Float32) : Keeps w (w.tickPowerups dt) :=
  ⟨rfl, rfl, rfl, rfl⟩

theorem keeps_tickShots (w : World) (dt : Float32) : Keeps w (w.tickShots dt) :=
  ⟨rfl, rfl, rfl, rfl⟩

theorem keeps_settle (w : World) (enemies : Pool Enemy) (toll : Toll) :
    Keeps w (w.settle enemies toll) := by
  have hadopted : Keeps w ({ w with enemies := enemies }.adopt toll.fire) := ⟨rfl, rfl, rfl, rfl⟩
  have hcontacts := keeps_foldl (fun w contact => w.keeps_addEffect contact.1 contact.2)
    ({ w with enemies := enemies }.adopt toll.fire) toll.contacts.reverse
  have hkills := keeps_foldl (f := announceKill) (fun w kill => ⟨rfl, rfl, rfl, rfl⟩)
    (toll.contacts.reverse.foldl (fun w contact => w.addEffect contact.1 contact.2)
      ({ w with enemies := enemies }.adopt toll.fire)) toll.kills.reverse
  exact ((hadopted.trans hcontacts).trans hkills).trans (keeps_awardScore _ _)

theorem keeps_resolvePlayer (w : World) : Keeps w w.resolvePlayer := by
  have hspent : ∀ shots, Keeps w { w with shots := shots } := fun _ => ⟨rfl, rfl, rfl, rfl⟩
  obtain ⟨shots, hspare | hhurt⟩ := w.resolvePlayer_cases
  · rw [hspare]
    exact hspent shots
  · rw [hhurt]
    exact (hspent shots).trans (keeps_hurtPlayer _)

theorem keeps_resolveHits (w : World) : Keeps w w.resolveHits :=
  (w.keeps_settle _ _).trans (keeps_resolvePlayer _)

/-! ### The whole tick -/

theorem keeps_act (w : World) (input : TickInput) (now : Float) (dt : Float32) :
    Keeps w (w.act input now dt) := by
  have hacted := (w.keeps_tickEnemies now).trans (keeps_tickPlayer _ input dt)
  have hmoved := (hacted.trans (keeps_tickPowerups _ dt)).trans (keeps_tickShots _ dt)
  exact hmoved.trans (keeps_resolveHits _)

variable {α : Type} [AudioPlayer α Float]

theorem keeps_followTimeline (w : World) (now : Float) (audio : α) :
    Keeps { w with timeline := (w.timeline.advance now w.catalog.stages audio).2.1 }
      (w.followTimeline now audio).1 := by
  simp only [followTimeline]
  split
  · exact keeps_onTimelineEvent _ _ now
  · exact .refl _

theorem followTimeline_audio (w : World) (now : Float) (audio : α) :
    (w.followTimeline now audio).2 = (w.timeline.advance now w.catalog.stages audio).2.2 := by
  simp only [followTimeline]
  split <;> rfl

/-- **A tick that is played** advances the timeline once and counts one tick. -/
theorem keeps_simulate (w : World) (input : TickInput) (now : Float) (audio : α) (dt : Float32) :
    Keeps
      { w with
        timeline := (w.timeline.advance now w.catalog.stages audio).2.1
        tickCount := w.tickCount + 1 }
      (w.simulate input now audio dt).1 := by
  have hfollowed := keeps_followTimeline { w with tickCount := w.tickCount + 1 } now audio
  rw [simulate_eq]
  exact hfollowed.trans (keeps_act _ input now dt)

theorem simulate_audio (w : World) (input : TickInput) (now : Float) (audio : α) (dt : Float32) :
    (w.simulate input now audio dt).2 = (w.timeline.advance now w.catalog.stages audio).2.2 :=
  followTimeline_audio { w with tickCount := w.tickCount + 1 } now audio

end World

end BulletHell
