import BulletHell.Proofs.Pool.Sweep
import BulletHell.Proofs.World.Launches
import BulletHell.Proofs.World.Phases

/-!
# What is done quietly

Much of what happens in a tick is show: effects, scores, the announcement of beats, pickups and
kills. None of it touches a shot, and no announcement that it makes is that of a shot.

## Main definitions

* `GameEvent.tellsOfShot` — the announcements of shots
* `Tells` — the launches that queued events announce
* `World.Quiet` — the shots are the same, and no shot was announced
* `World.Aside` — a quiet step that leaves both sides alone

## Main results

* `World.aside_settle` — the show that follows the engagement of the enemies
* `World.quiet_hurtPlayer`, `World.quiet_tickPowerups`, `World.quiet_followTimeline` — phases of a
  tick that have nothing to do with shots
-/

namespace BulletHell

/-- Does the event announce a shot? -/
def GameEvent.tellsOfShot : GameEvent → Bool
  | shotFired .. => true
  | _ => false

/-- Events were queued, and of shots they announce these launches. -/
def Tells (launches : List Launch) (events events' : Array GameEvent) : Prop :=
  ∃ told, events'.toList = events.toList ++ told ∧
    told.filter GameEvent.tellsOfShot = launches.map (·.event)

namespace Tells

variable {events events' events'' : Array GameEvent} {ls ls' : List Launch}

theorem of_eq (h : events' = events) : Tells [] events events' :=
  ⟨[], by rw [h, List.append_nil], rfl⟩

theorem refl (events : Array GameEvent) : Tells [] events events :=
  of_eq rfl

theorem append (h : Tells ls events events') (h' : Tells ls' events' events'') :
    Tells (ls ++ ls') events events'' := by
  obtain ⟨told, hevents, hlaunches⟩ := h
  obtain ⟨told', hevents', hlaunches'⟩ := h'
  refine ⟨told ++ told', ?_, ?_⟩
  · rw [hevents', hevents, List.append_assoc]
  · rw [List.filter_append, hlaunches, hlaunches', List.map_append]

/-- Nothing more is told of shots. -/
theorem hush (h : Tells ls events events') (h' : Tells [] events' events'') :
    Tells ls events events'' :=
  List.append_nil ls ▸ h.append h'

/-- One announcement, unless it is that of a shot. -/
theorem push (events : Array GameEvent) {event : GameEvent} (h : event.tellsOfShot = false) :
    Tells [] events (events.push event) := by
  refine ⟨[event], Array.toList_push, ?_⟩
  rw [List.filter_cons, h]
  rfl

/-- An effect is announced or dropped. -/
theorem showEffect (effects : Pool Effect) (events : Array GameEvent) (seconds : Float32)
    (kind : EffectKind) (position : Vec2) :
    Tells [] events (BulletHell.showEffect effects events seconds kind position).2 := by
  rw [BulletHell.showEffect]
  split
  · exact .refl events
  · exact .push events rfl

/-- Launches tell of themselves. -/
theorem of_append (h : events'.toList = events.toList ++ ls.map (·.event)) :
    Tells ls events events' := by
  refine ⟨ls.map (·.event), h, ?_⟩
  rw [List.filter_eq_self]
  intro event hevent
  obtain ⟨l, -, rfl⟩ := List.mem_map.mp hevent
  rfl

end Tells

namespace World

/-- No shot was touched, and none was announced. -/
structure Quiet (w w' : World) : Prop where
  shots : w'.shots = w.shots
  events : Tells [] w.events w'.events

namespace Quiet

variable {w w' w'' : World}

theorem refl (w : World) : Quiet w w :=
  ⟨rfl, .refl w.events⟩

theorem trans (h : Quiet w w') (h' : Quiet w' w'') : Quiet w w'' :=
  ⟨h'.shots.trans h.shots, h.events.hush h'.events⟩

/-- What leaves shots and the event queue alone. -/
theorem of_eq (hshots : w'.shots = w.shots) (hevents : w'.events = w.events) : Quiet w w' :=
  ⟨hshots, .of_eq hevents⟩

end Quiet

theorem quiet_foldl {β : Type} {f : World → β → World} (hf : ∀ w x, Quiet w (f w x)) (w : World)
    (xs : List β) : Quiet w (xs.foldl f w) :=
  List.foldlRecOn xs f (.refl w) fun w' h x _ => h.trans (hf w' x)

/-! ### Show -/

/-- A quiet step that leaves the enemies and the player alone as well. -/
structure Aside (w w' : World) : Prop extends Quiet w w' where
  enemies : w'.enemies = w.enemies
  player : w'.player = w.player

namespace Aside

variable {w w' w'' : World}

theorem refl (w : World) : Aside w w :=
  ⟨.refl w, rfl, rfl⟩

theorem trans (h : Aside w w') (h' : Aside w' w'') : Aside w w'' :=
  ⟨h.toQuiet.trans h'.toQuiet, h'.enemies.trans h.enemies, h'.player.trans h.player⟩

end Aside

theorem aside_foldl {β : Type} {f : World → β → World} (hf : ∀ w x, Aside w (f w x)) (w : World)
    (xs : List β) : Aside w (xs.foldl f w) :=
  List.foldlRecOn xs f (.refl w) fun w' h x _ => h.trans (hf w' x)

theorem aside_announce (w : World) {event : GameEvent} (h : event.tellsOfShot = false) :
    Aside w (w.announce event) :=
  ⟨⟨rfl, .push w.events h⟩, rfl, rfl⟩

theorem aside_addEffect (w : World) (kind : EffectKind) (position : Vec2) :
    Aside w (w.addEffect kind position) :=
  ⟨⟨rfl, .showEffect _ _ _ _ _⟩, rfl, rfl⟩

theorem aside_announceKill (w : World) (kill : Vec2 × Nat) : Aside w (w.announceKill kill) :=
  (w.aside_announce rfl).trans (aside_addEffect _ _ _)

theorem aside_earnExtends (w : World) (every : Nat) (pos : 0 < every) :
    Aside w (w.earnExtends every pos) := by
  fun_induction World.earnExtends w every pos with
  | case1 w _ ih =>
    have hearned : Aside w
        ({ w with extendPending := true, nextExtend := w.nextExtend + every }.announce
          (.extendEarned w.score)) :=
      ⟨⟨rfl, .push w.events rfl⟩, rfl, rfl⟩
    exact hearned.trans ih
  | case2 w => exact .refl w

theorem aside_awardScore (w : World) (points : Nat) : Aside w (w.awardScore points) := by
  have hscored : Aside w { w with score := w.score + points } := ⟨.of_eq rfl rfl, rfl, rfl⟩
  by_cases hpoints : points = 0
  · rw [awardScore, if_pos hpoints]
    exact .refl w
  · rw [awardScore_eq w hpoints]
    split
    · exact hscored.trans (aside_earnExtends _ _ _)
    · exact hscored

/-- **The show after the engagement** of the enemies. -/
theorem aside_settle (w : World) (enemies : Pool Enemy) (toll : Toll) :
    Aside ({ w with enemies := enemies }.adopt toll.fire) (w.settle enemies toll) := by
  have hcontacts := aside_foldl (fun w contact => w.aside_addEffect contact.1 contact.2)
    ({ w with enemies := enemies }.adopt toll.fire) toll.contacts.reverse
  have hkills := aside_foldl aside_announceKill
    (toll.contacts.reverse.foldl (fun w contact => w.addEffect contact.1 contact.2)
      ({ w with enemies := enemies }.adopt toll.fire)) toll.kills.reverse
  exact (hcontacts.trans hkills).trans (aside_awardScore _ _)

/-! ### Hits and pickups -/

theorem quiet_hurtPlayer (w : World) : Quiet w w.hurtPlayer := by
  have hhurt : Quiet w { w with player := (w.player.hit w.catalog.settings.player).2 } :=
    .of_eq rfl rfl
  have htold : ∀ event kind, event.tellsOfShot = false →
      Quiet w (({ w with player := (w.player.hit w.catalog.settings.player).2 }.announce
        event).addEffect kind w.player.position) := by
    intro event kind hevent
    exact hhurt.trans ((aside_announce _ hevent).trans (aside_addEffect _ _ _)).toQuiet
  simp only [hurtPlayer]
  split
  · exact hhurt
  · exact htold _ _ rfl
  · exact htold _ _ rfl
  · exact htold _ _ rfl

theorem tells_resolvePlayer (w : World) : Tells [] w.events w.resolvePlayer.events := by
  obtain ⟨shots, hspare | hhurt⟩ := w.resolvePlayer_cases
  · rw [hspare]
    exact .refl w.events
  · rw [hhurt]
    exact (quiet_hurtPlayer { w with shots := shots }).events

/-- A powerup is picked up quietly. -/
theorem tells_visit (catalog : Catalog) (target : Option Vec2) (dt : Float32) (p : Pickup)
    (powerup : Powerup) : Tells [] p.events (p.visit catalog target dt powerup).2.2.events := by
  have hcollect : ∀ (p : Pickup) orb position,
      Tells [] p.events (p.collect catalog.settings.player orb position).events :=
    fun p orb position => .push p.events rfl
  have hflash : ∀ (p : Pickup) position,
      Tells [] p.events (p.flash catalog.settings.effectTime position).events :=
    fun p position => .showEffect _ _ _ _ _
  have hall : ∀ (orbs : List (Orb × Vec2)) (p : Pickup),
      Tells [] p.events (orbs.foldl
        (fun p orb => p.collect catalog.settings.player orb.1 orb.2) p).events := by
    intro orbs
    induction orbs with
    | nil => exact fun p => .refl p.events
    | cons orb orbs ih => exact fun p => (hcollect p orb.1 orb.2).hush (ih _)
  simp only [Pickup.visit]
  split
  · exact .refl p.events
  · exact .refl p.events
  · exact (hcollect p _ _).hush (hflash _ _)
  · exact (hall _ p).hush (hflash _ _)

theorem quiet_tickPowerups (w : World) (dt : Float32) : Quiet w (w.tickPowerups dt) := by
  have hswept := Pool.sweep_course (P := fun _ => True)
    (R := fun p p' : Pickup => Tells [] p.events p'.events) (fun p => .refl p.events)
    (fun h h' => h.hush h') (Pickup.visit w.catalog w.livingPlayer dt)
    (fun p powerup _ => ⟨trivial, tells_visit w.catalog w.livingPlayer dt p powerup⟩) w.powerups
    (fun _ _ => trivial) ⟨w.player, w.effects, w.events⟩
  exact ⟨rfl, hswept.2⟩

/-! ### The timeline -/

theorem quiet_spawnEnemy (w : World) (event : SpawnEvent) (id : EnemyId) (timing : LegTiming) :
    Quiet w (w.spawnEnemy event id timing) := by
  simp only [spawnEnemy]
  split
  · exact .refl w
  · split
    · exact (w.aside_announce rfl).toQuiet
    · exact ⟨rfl, .push w.events rfl⟩

theorem quiet_spawnPowerup (w : World) (event : SpawnEvent) :
    Quiet w (w.spawnPowerup event) := by
  simp only [spawnPowerup]
  split
  · exact (w.aside_announce rfl).toQuiet
  · exact ⟨rfl, .push w.events rfl⟩

theorem quiet_dispatchSpawn (timing : LegTiming) (w : World) (event : SpawnEvent) :
    Quiet w (w.dispatchSpawn timing event) := by
  have hdecided : ∀ permitted, Quiet w { w with carryOver := permitted } :=
    fun _ => .of_eq rfl rfl
  simp only [dispatchSpawn]
  split
  · split
    · exact (hdecided _).trans (quiet_spawnEnemy _ _ _ _)
    · exact (hdecided _).trans (quiet_spawnPowerup _ _)
  · exact hdecided _

theorem quiet_announceBeat (w : World) (info : BeatInfo) : Quiet w (w.announceBeat info) := by
  simp only [announceBeat]
  split
  · exact ((w.aside_announce rfl).trans (aside_announce _ rfl)).toQuiet
  · exact (w.aside_announce rfl).toQuiet

theorem quiet_onTimelineEvent (w : World) (event : TimelineEvent Float) (now : Float) :
    Quiet w (w.onTimelineEvent event now) := by
  cases event with
  | stageStarted => exact ⟨rfl, .push w.events rfl⟩
  | beat info =>
    have hspawned := quiet_foldl (quiet_dispatchSpawn ((w.announceBeat info).legTiming now))
      (w.announceBeat info) ((w.announceBeat info).dueSpawns info)
    exact ((w.quiet_announceBeat info).trans hspawned).trans (.of_eq rfl rfl)

theorem quiet_followTimeline {α : Type} [AudioPlayer α Float] (w : World) (now : Float)
    (audio : α) : Quiet w (w.followTimeline now audio).1 := by
  have hadvanced : Quiet w
      { w with timeline := (w.timeline.advance now w.catalog.stages audio).2.1 } := .of_eq rfl rfl
  simp only [followTimeline]
  split
  · exact hadvanced.trans (quiet_onTimelineEvent _ _ now)
  · exact hadvanced

end World

end BulletHell
