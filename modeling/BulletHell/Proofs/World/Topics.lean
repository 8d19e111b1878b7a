import BulletHell.Proofs.World.Accounts

/-!
# Who speaks of what

Every phase of a tick tells the audience of things of its own: the timeline of the music and of
arrivals, the enemies and the player of fire, the powerups of pickups, the first pass of kills. An
event that is looked for in the record of a run has come from one of the few places that speak of
its topic, so that the other phases can be passed over at once.

## Main definitions

* `Topic`, `GameEvent.topic` — what an event is about
* `World.Speaks` — the topics of all that was told between two worlds
* `GameEvent.orb?`, `World.Granted` — orbs, and the player to whom they were given
* `World.Idles` — nothing was played

## Main results

* `World.speaks_followTimeline`, `speaks_tickEnemies`, `speaks_movePlayer`, `speaks_useBomb`,
  `speaks_resolveEnemies`, `speaks_hurtPlayer` — the phases of a tick
* `World.exists_granted_tickPowerups` — the powerups, and what they do to the player
* `World.idles_call`, `World.speaks_call_of_starts` — calls that play no tick
-/

namespace BulletHell

/-- What an event is about. -/
inductive Topic where
  | music
  | arrivals
  | fire
  | effects
  | kills
  | rewards
  | pickups
  | bombs
  | hits
  | control
deriving DecidableEq, Repr

namespace GameEvent

/-- The topic of an event. -/
def topic : GameEvent → Topic
  | stageStarted .. | bar .. | beat .. => .music
  | enemySpawned .. | powerupSpawned .. | spawnDropped .. => .arrivals
  | shotFired .. => .fire
  | effect .. => .effects
  | enemyKilled .. => .kills
  | extendEarned .. => .rewards
  | powerupCollected .. => .pickups
  | bombUsed .. => .bombs
  | playerHit .. | playerDied .. => .hits
  | paused | resumed .. | gameOver .. => .control

/-- The events about a topic. -/
def about (topic : Topic) (told : List GameEvent) : List GameEvent :=
  told.filter (·.topic = topic)

theorem about_append (topic : Topic) (told told' : List GameEvent) :
    about topic (told ++ told') = about topic told ++ about topic told' :=
  List.filter_append told told'

/-- Where nobody speaks of a topic, nothing is told about it. -/
theorem about_eq_nil {topics : List Topic} {told : List GameEvent}
    (h : ∀ event ∈ told, event.topic ∈ topics) {topic : Topic} (htopic : topic ∉ topics) :
    about topic told = [] := by
  rw [about, List.filter_eq_nil_iff]
  intro event hevent habout
  exact htopic (of_decide_eq_true habout ▸ h event hevent)

/-- The orb that was collected. -/
def orb? : GameEvent → Option Orb
  | powerupCollected orb _ => some orb
  | _ => none

/-- Where nobody speaks of pickups, no orb was collected. -/
theorem filterMap_orb?_eq_nil {topics : List Topic} {told : List GameEvent}
    (h : ∀ event ∈ told, event.topic ∈ topics) (htopics : .pickups ∉ topics) :
    told.filterMap orb? = [] := by
  rw [List.filterMap_eq_nil_iff]
  intro event hevent
  cases event with
  | powerupCollected orb position => exact absurd (h _ hevent) htopics
  | _ => rfl

end GameEvent

open GameEvent

namespace World

/-- All that was told between two worlds is about these topics. -/
def Speaks (topics : List Topic) (w w' : World) : Prop :=
  ∃ told, w'.events.toList = w.events.toList ++ told ∧ ∀ event ∈ told, event.topic ∈ topics

namespace Speaks

variable {w w' w'' : World} {topics topics' : List Topic}

/-- Nothing was told. -/
theorem of_eq (h : w'.events = w.events) : Speaks topics w w' :=
  ⟨[], by rw [h, List.append_nil], fun _ h => by cases h⟩

theorem refl (topics : List Topic) (w : World) : Speaks topics w w :=
  .of_eq rfl

theorem trans (h : Speaks topics w w') (h' : Speaks topics w' w'') : Speaks topics w w'' := by
  obtain ⟨told, hevents, htold⟩ := h
  obtain ⟨told', hevents', htold'⟩ := h'
  refine ⟨told ++ told', ?_, fun event hevent => ?_⟩
  · rw [hevents', hevents, List.append_assoc]
  · rcases List.mem_append.mp hevent with hmem | hmem
    · exact htold event hmem
    · exact htold' event hmem

theorem mono (h : Speaks topics w w') (hsub : topics ⊆ topics') : Speaks topics' w w' := by
  obtain ⟨told, hevents, htold⟩ := h
  exact ⟨told, hevents, fun event hevent => hsub (htold event hevent)⟩

/-- One announcement. -/
theorem push {event : GameEvent} (h : w'.events = w.events.push event)
    (htopic : event.topic ∈ topics) : Speaks topics w w' := by
  refine ⟨[event], by rw [h, Array.toList_push], fun e he => ?_⟩
  rw [List.mem_singleton.mp he]
  exact htopic

/-- Launches speak of fire. -/
theorem of_launches {launches : List Launch}
    (h : w'.events.toList = w.events.toList ++ launches.map (·.event)) :
    Speaks [.fire] w w' := by
  refine ⟨launches.map (·.event), h, fun event hevent => ?_⟩
  obtain ⟨l, -, rfl⟩ := List.mem_map.mp hevent
  exact List.mem_singleton.mpr rfl

theorem foldl {β : Type} {f : World → β → World} (hf : ∀ w x, Speaks topics w (f w x)) (w : World)
    (xs : List β) : Speaks topics w (xs.foldl f w) :=
  List.foldlRecOn xs f (.refl topics w) fun w' h x _ => h.trans (hf w' x)

end Speaks

theorem speaks_addEffect (w : World) (kind : EffectKind) (position : Vec2) :
    Speaks [.effects] w (w.addEffect kind position) := by
  simp only [addEffect, showEffect]
  split
  · exact .refl _ w
  · exact .push rfl (List.mem_singleton.mpr rfl)

/-- One announcement, with an effect. -/
theorem speaks_announce_addEffect (w : World) (event : GameEvent) (kind : EffectKind)
    (position : Vec2) :
    Speaks [event.topic, .effects] w ((w.announce event).addEffect kind position) :=
  (Speaks.push (w := w) rfl (.head _)).trans
    ((speaks_addEffect _ kind position).mono (List.subset_cons_self _ _))

/-! ### The timeline -/

theorem speaks_dispatchSpawn (timing : LegTiming) (w : World) (event : SpawnEvent) :
    Speaks [.arrivals] w (w.dispatchSpawn timing event) := by
  have harrival : Topic.arrivals ∈ [Topic.arrivals] := List.mem_singleton.mpr rfl
  simp only [dispatchSpawn]
  split
  · split
    · simp only [spawnEnemy]
      split
      · exact .of_eq rfl
      · split <;> exact .push rfl harrival
    · simp only [spawnPowerup]
      split <;> exact .push rfl harrival
  · exact .of_eq rfl

theorem speaks_onTimelineEvent (w : World) (event : TimelineEvent Float) (now : Float) :
    Speaks [.music, .arrivals] w (w.onTimelineEvent event now) := by
  have hmusic : Topic.music ∈ [Topic.music, .arrivals] := .head _
  cases event with
  | stageStarted stage loopCount start => exact .push rfl hmusic
  | beat info =>
    have hannounced : Speaks [.music, .arrivals] w (w.announceBeat info) := by
      have hbeat : ∀ w : World, Speaks [.music, .arrivals] w
          (w.announce (.beat info.bar info.beat info.total)) := fun _ => .push rfl hmusic
      simp only [announceBeat]
      split
      · have hbar : Speaks [.music, .arrivals] w (w.announce (.bar info.bar)) := .push rfl hmusic
        exact hbar.trans (hbeat _)
      · exact hbeat w
    have hspawned := Speaks.foldl (speaks_dispatchSpawn ((w.announceBeat info).legTiming now))
      (w.announceBeat info) ((w.announceBeat info).dueSpawns info)
    exact (hannounced.trans (hspawned.mono (List.subset_cons_self _ _))).trans (.of_eq rfl)

section Audio

variable {α : Type} [AudioPlayer α Float]

theorem speaks_followTimeline (w : World) (now : Float) (audio : α) :
    Speaks [.music, .arrivals] w (w.followTimeline now audio).1 := by
  simp only [followTimeline]
  split
  · exact Speaks.trans (.of_eq rfl) (speaks_onTimelineEvent _ _ now)
  · exact .of_eq rfl

end Audio

/-! ### Those who act -/

theorem speaks_tickEnemies (w : World) (now : Float) : Speaks [.fire] w (w.tickEnemies now) := by
  obtain ⟨launches, hlaunches⟩ := w.launches_tickEnemies now
  exact .of_launches hlaunches.events

theorem speaks_movePlayer (w : World) (input : TickInput) (dt : Float32) :
    Speaks [.fire] w (w.movePlayer input dt) := by
  obtain ⟨launches, hlaunches⟩ := (w.setOut input.movement dt).launches_workGate input.fire
  exact .of_launches (w := w) hlaunches.events

/-- What a bomb does where there is one. -/
def bombed (w : World) : World :=
  ({ w.wipeHostileShots with
      player := { w.player with bombs := w.player.bombs - 1 } }.announce
    (.bombUsed w.player.position)).addEffect .bomb w.player.position

theorem useBomb_eq (w : World) :
    w.useBomb.2 = if w.player.isAlive = true ∧ w.player.bombs ≠ 0 then w.bombed else w := by
  rw [useBomb]
  cases halive : w.player.isAlive with
  | false => rfl
  | true =>
    by_cases hbombs : w.player.bombs = 0
    · simp [Player.useBomb?, hbombs]
    · simp [Player.useBomb?, hbombs, bombed, wipeHostileShots]

theorem speaks_useBomb (w : World) : Speaks [.bombs, .effects] w w.useBomb.2 := by
  rw [useBomb_eq]
  split
  · exact Speaks.trans (.of_eq rfl) (speaks_announce_addEffect _ (.bombUsed _) _ _)
  · exact .refl _ w

/-! ### Powerups -/

/-- What powerups have told, and the player to whom they have given their orbs. -/
structure Granted (settings : PlayerSettings) (told : List GameEvent) (p p' : Pickup) : Prop where
  events : p'.events.toList = p.events.toList ++ told
  player : p'.player =
    (told.filterMap orb?).foldl (fun player orb => player.grant orb settings) p.player
  topics : ∀ event ∈ told, event.topic ∈ [Topic.pickups, .effects]

namespace Granted

variable {settings : PlayerSettings} {p p' p'' : Pickup} {told told' : List GameEvent}

theorem refl (settings : PlayerSettings) (p : Pickup) : Granted settings [] p p :=
  ⟨(List.append_nil _).symm, rfl, fun _ h => by cases h⟩

theorem trans (h : Granted settings told p p') (h' : Granted settings told' p' p'') :
    Granted settings (told ++ told') p p'' := by
  refine ⟨?_, ?_, fun event hevent => ?_⟩
  · rw [h'.events, h.events, List.append_assoc]
  · rw [h'.player, h.player, List.filterMap_append, List.foldl_append]
  · rcases List.mem_append.mp hevent with hmem | hmem
    · exact h.topics event hmem
    · exact h'.topics event hmem

theorem collect (settings : PlayerSettings) (p : Pickup) (orb : Orb) (position : Vec2) :
    Granted settings [.powerupCollected orb position] p (p.collect settings orb position) := by
  refine ⟨Array.toList_push, rfl, fun event hevent => ?_⟩
  rw [List.mem_singleton.mp hevent]
  exact .head _

theorem flash (settings : PlayerSettings) (seconds : Float32) (p : Pickup) (position : Vec2) :
    ∃ told, Granted settings told p (p.flash seconds position) := by
  simp only [Pickup.flash, showEffect]
  split
  · exact ⟨[], refl settings p⟩
  · refine ⟨[.effect .pickup position], Array.toList_push, rfl, fun event hevent => ?_⟩
    rw [List.mem_singleton.mp hevent]
    exact .tail _ (.head _)

theorem foldl_collect (settings : PlayerSettings) (orbs : List (Orb × Vec2)) (p : Pickup) :
    ∃ told, Granted settings told p
      (orbs.foldl (fun p orb => p.collect settings orb.1 orb.2) p) := by
  induction orbs generalizing p with
  | nil => exact ⟨[], refl settings p⟩
  | cons orb orbs ih =>
    obtain ⟨told, hrest⟩ := ih (p.collect settings orb.1 orb.2)
    exact ⟨_, (collect settings p orb.1 orb.2).trans hrest⟩

theorem visit (catalog : Catalog) (target : Option Vec2) (dt : Float32) (p : Pickup)
    (powerup : Powerup) :
    ∃ told, Granted catalog.settings.player told p (p.visit catalog target dt powerup).2.2 := by
  simp only [Pickup.visit]
  split
  · exact ⟨[], refl _ p⟩
  · exact ⟨[], refl _ p⟩
  · next orb _ =>
    obtain ⟨told, hflash⟩ := flash catalog.settings.player catalog.settings.effectTime
      (p.collect catalog.settings.player orb powerup.position) powerup.position
    exact ⟨_, (collect _ p orb powerup.position).trans hflash⟩
  · obtain ⟨told, hall⟩ := foldl_collect catalog.settings.player
      ((powerup.tick target catalog.powerup dt).2.orbs catalog.powerup) p
    obtain ⟨told', hflash⟩ := flash catalog.settings.player catalog.settings.effectTime
      (((powerup.tick target catalog.powerup dt).2.orbs catalog.powerup).foldl
        (fun p orb => p.collect catalog.settings.player orb.1 orb.2) p) powerup.position
    exact ⟨_, hall.trans hflash⟩

end Granted

/-- **The powerups**: the player is given the orbs that are told of, one by one. -/
theorem exists_granted_tickPowerups (w : World) (dt : Float32) :
    ∃ told, Granted w.catalog.settings.player told ⟨w.player, w.effects, w.events⟩
      ⟨(w.tickPowerups dt).player, (w.tickPowerups dt).effects, (w.tickPowerups dt).events⟩ := by
  have hswept := Pool.sweep_course (P := fun _ => True)
    (R := fun p p' : Pickup => ∃ told, Granted w.catalog.settings.player told p p')
    (fun p => ⟨[], .refl _ p⟩)
    (fun ⟨told, h⟩ ⟨told', h'⟩ => ⟨told ++ told', h.trans h'⟩)
    (Pickup.visit w.catalog w.livingPlayer dt)
    (fun p powerup _ => ⟨trivial, Granted.visit w.catalog w.livingPlayer dt p powerup⟩) w.powerups
    (fun _ _ => trivial) ⟨w.player, w.effects, w.events⟩
  exact hswept.2

theorem speaks_tickPowerups (w : World) (dt : Float32) :
    Speaks [.pickups, .effects] w (w.tickPowerups dt) := by
  obtain ⟨told, hgranted⟩ := w.exists_granted_tickPowerups dt
  exact ⟨told, hgranted.events, hgranted.topics⟩

/-! ### Hits -/

theorem speaks_awardScore (w : World) (points : Nat) :
    Speaks [.rewards] w (w.awardScore points) := by
  obtain ⟨n, heq, -⟩ := w.exists_awardScore_eq points
  refine ⟨List.replicate n (.extendEarned (w.score + points)), ?_, fun event hevent => ?_⟩
  · rw [heq, Array.toList_append]
  · rw [List.eq_of_mem_replicate hevent]
    exact List.mem_singleton.mpr rfl

theorem speaks_resolveEnemies (w : World) :
    Speaks [.fire, .effects, .kills, .rewards] w w.resolveEnemies := by
  obtain ⟨⟨launches, hexchange⟩, -⟩ :=
    w.skirmish.exchange_sweepSlots ⟨w.fireControl w.livingPlayer 0, [], []⟩ rfl w.enemies.active
  have hsweep : w.engagement.2 = (Pool.sweepSlots w.skirmish.engage w.enemies.active
      ⟨w.fireControl w.livingPlayer 0, [], []⟩).2.2 := by
    rw [engagement, Pool.sweep_eq]
  rw [← hsweep] at hexchange
  have hengaged : Speaks [.fire] w
      ({ w with enemies := w.engagement.1 }.adopt w.engagement.2.fire) :=
    .of_launches hexchange.events
  have hcontacts := Speaks.foldl (fun w contact => w.speaks_addEffect contact.1 contact.2)
    ({ w with enemies := w.engagement.1 }.adopt w.engagement.2.fire)
    w.engagement.2.contacts.reverse
  have hkill : ∀ (w : World) kill, Speaks [.kills, .effects] w (w.announceKill kill) :=
    fun w kill => w.speaks_announce_addEffect (.enemyKilled kill.1 kill.2) .kill kill.1
  have hkills := Speaks.foldl hkill
    (w.engagement.2.contacts.reverse.foldl (fun w contact => w.addEffect contact.1 contact.2)
      ({ w with enemies := w.engagement.1 }.adopt w.engagement.2.fire))
    w.engagement.2.kills.reverse
  exact (((hengaged.mono (by decide)).trans (hcontacts.mono (by decide))).trans
    (hkills.mono (by decide))).trans ((speaks_awardScore _ _).mono (by decide))

theorem speaks_hurtPlayer (w : World) : Speaks [.hits, .effects] w w.hurtPlayer := by
  have hstruck : Speaks [.hits, .effects] w
      { w with player := (w.player.hit w.catalog.settings.player).2 } := .of_eq rfl
  simp only [hurtPlayer]
  split
  · exact hstruck
  · exact hstruck.trans (speaks_announce_addEffect _ (.playerHit _ true) _ _)
  · exact hstruck.trans (speaks_announce_addEffect _ (.playerHit _ false) _ _)
  · exact hstruck.trans (speaks_announce_addEffect _ (.playerDied _) _ _)

/-! ### Other calls -/

variable {α : Type} [AudioPlayer α Float]

theorem emitted_of_speaks {s : World × α} {c : Call} {topics : List Topic}
    (h : Speaks topics s.1 (call s c).1) : ∀ event ∈ emitted s c, event.topic ∈ topics := by
  obtain ⟨told, hevents, htold⟩ := h
  rw [emitted_of_append hevents]
  exact htold

/-- Nothing happened but to the control of the run, to its enemies' deadlines and to effects. -/
structure Idles (w w' : World) : Prop where
  catalog : w'.catalog = w.catalog
  player : w'.player = w.player
  shots : w'.shots = w.shots
  tickCount : w'.tickCount = w.tickCount
  speaks : Speaks [.control] w w'

namespace Idles

variable {w w' w'' : World}

theorem of_eq (hcatalog : w'.catalog = w.catalog) (hplayer : w'.player = w.player)
    (hshots : w'.shots = w.shots) (htick : w'.tickCount = w.tickCount)
    (hevents : w'.events = w.events) : Idles w w' :=
  ⟨hcatalog, hplayer, hshots, htick, .of_eq hevents⟩

theorem refl (w : World) : Idles w w :=
  .of_eq rfl rfl rfl rfl rfl

theorem trans (h : Idles w w') (h' : Idles w' w'') : Idles w w'' :=
  ⟨h'.catalog.trans h.catalog, h'.player.trans h.player, h'.shots.trans h.shots,
    h'.tickCount.trans h.tickCount, h.speaks.trans h'.speaks⟩

/-- One announcement that is about control. -/
theorem push {event : GameEvent} (hevents : w'.events = w.events.push event)
    (htopic : event.topic = .control) (hcatalog : w'.catalog = w.catalog)
    (hplayer : w'.player = w.player) (hshots : w'.shots = w.shots)
    (htick : w'.tickCount = w.tickCount) : Idles w w' :=
  ⟨hcatalog, hplayer, hshots, htick, .push hevents (List.mem_singleton.mpr htopic)⟩

end Idles

theorem idles_pause (w : World) (now : Float) (audio : α) : Idles w (w.pause now audio).2.1 := by
  rcases w.pause_cases now audio with hnone | ⟨hplaying, hactive⟩
  · rw [hnone]
    exact .refl w
  · rw [pause_eq hplaying hactive]
    exact .push rfl rfl rfl rfl rfl rfl

theorem idles_resume (w : World) (now : Float) (audio : α) :
    Idles w (w.resume now audio).2.1 := by
  rcases w.resume_cases now audio with hnone | ⟨hpaused, since, hstate⟩
  · rw [hnone]
    exact .refl w
  · rw [resume_eq hpaused hstate]
    exact .push rfl rfl rfl rfl rfl rfl

theorem idles_ready (w : World) (input : TickInput) (now : Float) (audio : α) (dt : Float32) :
    Idles w (w.ready input now audio dt).1 := by
  have haged : Idles w (w.age dt) := by
    rw [age]
    split <;> exact .of_eq rfl rfl rfl rfl rfl
  rw [ready]
  split
  · rw [togglePause]
    split
    · exact haged.trans (idles_pause _ _ _)
    · exact haged.trans (idles_resume _ _ _)
    · exact haged
  · exact haged

variable {s : World × α} {c : Call}

/-- The world in which a tick is played. -/
theorem idles_of_played {p : PlayedTick α} (h : played s c = some p) : Idles s.1 p.world := by
  cases c with
  | tick input now dt =>
    obtain ⟨rfl, -⟩ := played_tick_eq_some h
    exact s.1.idles_ready input now s.2 dt
  | _ => cases h

/-- **A call that plays no tick** and does not begin a run. -/
theorem idles_call (h : played s c = none) (hstarts : c.starts = false)
    (hkeeps : c ≠ .drainEvents) : Idles s.1 (call s c).1 := by
  cases c with
  | tick input now dt =>
    have hready := s.1.idles_ready input now s.2 dt
    rcases tick_of_not_played h hstarts with ⟨hcall, -⟩ | ⟨hcall, -⟩
    · rw [hcall]
      exact hready
    · rw [hcall]
      exact hready.trans (.push rfl rfl rfl rfl rfl rfl)
  | startGame now => cases hstarts
  | pause now => exact s.1.idles_pause now s.2
  | resume now => exact s.1.idles_resume now s.2
  | drainEvents => exact absurd rfl hkeeps

/-- **A call that begins a run.** -/
theorem speaks_call_of_starts (h : c.starts = true) :
    Speaks [.music, .arrivals] s.1 (call s c).1 := by
  have hstart : ∀ (w : World) now, Speaks [.music, .arrivals] w (w.startGame now s.2).1 := by
    intro w now
    rw [startGame_eq]
    split
    · exact Speaks.trans (.of_eq rfl) (speaks_onTimelineEvent _ _ now)
    · exact .of_eq rfl
  cases c with
  | tick input now dt =>
    have hrestart : input.restart = true := h
    have haged : Speaks [.music, .arrivals] s.1 (s.1.age dt) := by
      rw [age]
      split <;> exact .of_eq rfl
    rw [call, tick_eq, hrestart, if_pos rfl]
    exact haged.trans (hstart _ now)
  | startGame now => exact hstart s.1 now
  | _ => cases h

end World

end BulletHell
