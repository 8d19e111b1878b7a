import BulletHell.Proofs.Actor.Contexts
import BulletHell.Proofs.World.Phases

/-!
# One play on two stages

The effects on show and the queued events are for the audience only. Play adds to them and never
looks at them. So a world goes the same way whatever was on show when it set out and whatever was
left in the queue, and on both ways the same things are added.

What is compared here is two worlds that agree on everything but the display and the settings of
effects. How their displays are related is left open: any relation will do that is kept when one
event is queued on both sides and when one effect is shown on both sides. Queues that grew from
two given ones by the same events are one example, queues that agree but for effects another.

## Main definitions

* `Display` — what a world shows
* `Staging` — a relation between displays that announcements and effects keep
* `World.Alike` — worlds that differ in their display at most

## Main results

* `FireControl.alike` — emitters fire alike in such worlds
* `World.Alike.change` — what takes no notice of the display
* `World.Alike.announce`, `addEffect`, `awardScore`, `hurtPlayer`, `useBomb`, `onTimelineEvent` —
  the operations that the phases of a tick share
-/

namespace BulletHell

/-- What the audience is given: the effects on show and the events not collected yet. -/
structure Display where
  effects : Pool Effect
  events : Array GameEvent

namespace Display

def announce (d : Display) (event : GameEvent) : Display :=
  { d with events := d.events.push event }

def addEffect (d : Display) (seconds : Float32) (kind : EffectKind) (position : Vec2) : Display :=
  ⟨(showEffect d.effects d.events seconds kind position).1,
    (showEffect d.effects d.events seconds kind position).2⟩

end Display

/-- A relation between the displays of two worlds, and the settings of effects in both. -/
structure Staging where
  /-- How long effects last in the first world. -/
  seconds : Float32
  /-- How long they last in the second one, and how many it has room for. -/
  seconds' : Float32
  capacity' : Nat
  Related : Display → Display → Prop
  announce : ∀ {d d' : Display}, Related d d' → ∀ event,
    Related (d.announce event) (d'.announce event)
  addEffect : ∀ {d d' : Display}, Related d d' → ∀ kind position,
    Related (d.addEffect seconds kind position) (d'.addEffect seconds' kind position)

variable {st : Staging}

/-! ### Fire control -/

namespace FireControl

/-- Fire controls that differ in the event queue at most. The effects are not theirs to change,
but belong to the displays that are related. -/
def Alike (st : Staging) (effects effects' : Pool Effect) (f f' : FireControl) : Prop :=
  ∃ events', f' = { f with events := events' } ∧
    st.Related ⟨effects, f.events⟩ ⟨effects', events'⟩

theorem alike (st : Staging) (effects effects' : Pool Effect) :
    FireContext.Alike (FireControl.Alike st effects effects') where
  angle := by
    rintro f - ⟨events', rfl, -⟩ origin
    rfl
  random := by
    rintro f - ⟨events', rfl, hdisplay⟩ spread
    exact ⟨_, rfl, events', rfl, hdisplay⟩
  spawn := by
    rintro f - ⟨events', rfl, hdisplay⟩ request
    simp only [FireContext.spawnShot, spawnShot]
    split
    · exact ⟨events', rfl, hdisplay⟩
    · split
      · exact ⟨events', rfl, hdisplay⟩
      · exact ⟨_, rfl, st.announce hdisplay _⟩

end FireControl

/-- The same catalog with the second settings of effects. -/
def Catalog.restage (c : Catalog) (st : Staging) : Catalog :=
  { c with settings :=
      { c.settings with effectTime := st.seconds', effectPool := st.capacity' } }

namespace World

/-! ### Worlds -/

/-- What a world shows. -/
def display (w : World) : Display :=
  ⟨w.effects, w.events⟩

/-- The same world with another display, and with the second settings of effects. -/
def restage (w : World) (st : Staging) (d : Display) : World :=
  { w with catalog := w.catalog.restage st, effects := d.effects, events := d.events }

/-- Worlds that differ in their display and in the settings of effects at most. -/
structure Alike (st : Staging) (w w' : World) : Prop where
  seconds : w.catalog.settings.effectTime = st.seconds
  restaged : ∃ d', w' = w.restage st d' ∧ st.Related w.display d'

namespace Alike

variable {w w' : World}

/-! What the worlds have in common. -/

theorem catalog (h : Alike st w w') : w'.catalog = w.catalog.restage st := by
  obtain ⟨-, d', rfl, -⟩ := h
  rfl

theorem phase (h : Alike st w w') : w'.phase = w.phase := by
  obtain ⟨-, d', rfl, -⟩ := h
  rfl

theorem timeline (h : Alike st w w') : w'.timeline = w.timeline := by
  obtain ⟨-, d', rfl, -⟩ := h
  rfl

theorem enemies (h : Alike st w w') : w'.enemies = w.enemies := by
  obtain ⟨-, d', rfl, -⟩ := h
  rfl

theorem shots (h : Alike st w w') : w'.shots = w.shots := by
  obtain ⟨-, d', rfl, -⟩ := h
  rfl

theorem powerups (h : Alike st w w') : w'.powerups = w.powerups := by
  obtain ⟨-, d', rfl, -⟩ := h
  rfl

theorem player (h : Alike st w w') : w'.player = w.player := by
  obtain ⟨-, d', rfl, -⟩ := h
  rfl

theorem score (h : Alike st w w') : w'.score = w.score := by
  obtain ⟨-, d', rfl, -⟩ := h
  rfl

theorem nextExtend (h : Alike st w w') : w'.nextExtend = w.nextExtend := by
  obtain ⟨-, d', rfl, -⟩ := h
  rfl

theorem extendPending (h : Alike st w w') : w'.extendPending = w.extendPending := by
  obtain ⟨-, d', rfl, -⟩ := h
  rfl

theorem tickCount (h : Alike st w w') : w'.tickCount = w.tickCount := by
  obtain ⟨-, d', rfl, -⟩ := h
  rfl

theorem carryOver (h : Alike st w w') : w'.carryOver = w.carryOver := by
  obtain ⟨-, d', rfl, -⟩ := h
  rfl

theorem enemy? (h : Alike st w w') (id : EnemyId) :
    w'.catalog.enemy? id = w.catalog.enemy? id := by
  rw [h.catalog]
  rfl

theorem stages (h : Alike st w w') : w'.catalog.stages = w.catalog.stages := by
  rw [h.catalog]
  rfl

theorem playerSettings (h : Alike st w w') :
    w'.catalog.settings.player = w.catalog.settings.player := by
  rw [h.catalog]
  rfl

theorem countedEnemies (h : Alike st w w') : w'.countedEnemies = w.countedEnemies := by
  rw [World.countedEnemies, h.enemies]
  rfl

theorem livingPlayer (h : Alike st w w') : w'.livingPlayer = w.livingPlayer := by
  rw [World.livingPlayer, h.player]
  rfl

theorem legTiming (h : Alike st w w') (now : Float) : w'.legTiming now = w.legTiming now := by
  rw [World.legTiming, h.timeline, h.catalog]
  rfl

/-! What is done to both. -/

theorem announce (h : Alike st w w') (event : GameEvent) :
    Alike st (w.announce event) (w'.announce event) := by
  obtain ⟨hseconds, d', rfl, hd⟩ := h
  exact ⟨hseconds, _, rfl, st.announce hd event⟩

theorem addEffect (h : Alike st w w') (kind : EffectKind) (position : Vec2) :
    Alike st (w.addEffect kind position) (w'.addEffect kind position) := by
  obtain ⟨hseconds, d', rfl, hd⟩ := h
  have hshown := st.addEffect hd kind position
  rw [← hseconds] at hshown
  exact ⟨hseconds, _, rfl, hshown⟩

/-- Any change that takes no notice of the display. -/
theorem change (h : Alike st w w') (f : World → World)
    (hcatalog : (f w).catalog = w.catalog) (hdisplay : (f w).display = w.display)
    (hf : ∀ d', f (w.restage st d') = (f w).restage st d') : Alike st (f w) (f w') := by
  obtain ⟨hseconds, d', rfl, hd⟩ := h
  exact ⟨hcatalog ▸ hseconds, d', hf d', hdisplay ▸ hd⟩

/-- One step after the other. -/
theorem foldl {β : Type} {f : World → β → World}
    (hf : ∀ {w w' : World}, Alike st w w' → ∀ x, Alike st (f w x) (f w' x))
    (h : Alike st w w') (xs : List β) : Alike st (xs.foldl f w) (xs.foldl f w') := by
  induction xs generalizing w w' with
  | nil => exact h
  | cons x xs ih => exact ih (hf h x)

theorem fireControl (h : Alike st w w') (target : Option Vec2) (fallbackAngle : Int) :
    FireControl.Alike st w.effects w'.effects (w.fireControl target fallbackAngle)
      (w'.fireControl target fallbackAngle) := by
  obtain ⟨-, d', rfl, hd⟩ := h
  exact ⟨d'.events, rfl, hd⟩

theorem adopt (h : Alike st w w') {f f' : FireControl}
    (hf : FireControl.Alike st w.effects w'.effects f f') :
    Alike st (w.adopt f) (w'.adopt f') := by
  obtain ⟨hseconds, d', rfl, -⟩ := h
  obtain ⟨events', rfl, hdisplay⟩ := hf
  exact ⟨hseconds, ⟨d'.effects, events'⟩, rfl, hdisplay⟩

/-! ### Score, hits and bombs -/

theorem earnExtends (h : Alike st w w') (every : Nat) (pos : 0 < every) :
    Alike st (w.earnExtends every pos) (w'.earnExtends every pos) := by
  fun_induction World.earnExtends w every pos generalizing w' with
  | case1 w hle ih =>
    have hpending := h.change
      (fun w => { w with extendPending := true, nextExtend := w.nextExtend + every })
      rfl rfl fun _ => rfl
    have hle' : w'.nextExtend ≤ w'.score := by rwa [h.nextExtend, h.score]
    have hevent : GameEvent.extendEarned w'.score = .extendEarned w.score := by rw [h.score]
    rw [earnExtends_eq w', if_pos hle', hevent]
    exact ih (hpending.announce _)
  | case2 w hle =>
    have hle' : ¬ w'.nextExtend ≤ w'.score := by rwa [h.nextExtend, h.score]
    rw [earnExtends_eq w', if_neg hle']
    exact h

theorem awardScore (h : Alike st w w') (points : Nat) :
    Alike st (w.awardScore points) (w'.awardScore points) := by
  have hscore := h.change (fun w => { w with score := w.score + points }) rfl rfl fun _ => rfl
  have hevery : w'.catalog.settings.extendEvery = w.catalog.settings.extendEvery := by
    rw [h.catalog]
    rfl
  by_cases hpoints : points = 0
  · rw [World.awardScore, World.awardScore, if_pos hpoints, if_pos hpoints]
    exact h
  · rw [awardScore_eq w hpoints, awardScore_eq w' hpoints]
    simp only [hevery]
    split
    · exact hscore.earnExtends _ _
    · exact hscore

theorem withPlayer (h : Alike st w w') (player : Player) :
    Alike st { w with player := player } { w' with player := player } :=
  h.change (fun w => { w with player := player }) rfl rfl fun _ => rfl

theorem hurtPlayer (h : Alike st w w') : Alike st w.hurtPlayer w'.hurtPlayer := by
  have hplayer := h.withPlayer (w.player.hit w.catalog.settings.player).2
  simp only [World.hurtPlayer, h.player, h.playerSettings]
  split
  · exact hplayer
  · exact (hplayer.announce _).addEffect _ _
  · exact (hplayer.announce _).addEffect _ _
  · exact (hplayer.announce _).addEffect _ _

theorem wipeHostileShots (h : Alike st w w') :
    Alike st w.wipeHostileShots w'.wipeHostileShots :=
  h.change World.wipeHostileShots rfl rfl fun _ => rfl

theorem useBomb (h : Alike st w w') : Alike st w.useBomb.2 w'.useBomb.2 := by
  simp only [World.useBomb, h.player]
  split
  · exact h
  · split
    · exact h
    · exact ((h.withPlayer _).wipeHostileShots.announce _).addEffect _ _

/-! ### Stage events and spawns -/

theorem withEnemies (h : Alike st w w') (enemies : Pool Enemy) :
    Alike st { w with enemies := enemies } { w' with enemies := enemies } :=
  h.change (fun w => { w with enemies := enemies }) rfl rfl fun _ => rfl

theorem spawnEnemy (h : Alike st w w') (event : SpawnEvent) (id : EnemyId)
    (timing : LegTiming) : Alike st (w.spawnEnemy event id timing) (w'.spawnEnemy event id timing) := by
  simp only [World.spawnEnemy, h.enemy?, h.enemies]
  split
  · exact h
  · split
    · exact h.announce _
    · exact (h.withEnemies _).announce _

theorem spawnPowerup (h : Alike st w w') (event : SpawnEvent) :
    Alike st (w.spawnPowerup event) (w'.spawnPowerup event) := by
  have hpowerup : w'.catalog.powerup = w.catalog.powerup := by
    rw [h.catalog]
    rfl
  simp only [World.spawnPowerup, h.extendPending, h.player, h.powerups, hpowerup]
  split
  · exact h.announce _
  · next powerups _ =>
    have hspawned := h.change (fun v =>
      { v with
        powerups := powerups
        extendPending := w.extendPending && !(w.extendPending && w.player.shielded) })
      rfl rfl fun _ => rfl
    have hannounced := hspawned.announce
      (.powerupSpawned (entryPoint event) (w.extendPending && w.player.shielded))
    simpa only [h.player] using hannounced

theorem dispatchSpawn (h : Alike st w w') (timing : LegTiming) (event : SpawnEvent) :
    Alike st (w.dispatchSpawn timing event) (w'.dispatchSpawn timing event) := by
  simp only [World.dispatchSpawn, h.countedEnemies, h.carryOver]
  have hdecided := h.change (fun v =>
    { v with carryOver := event.condition.permits w.countedEnemies w.carryOver })
    rfl rfl fun _ => rfl
  split
  · split
    · exact hdecided.spawnEnemy _ _ _
    · exact hdecided.spawnPowerup _
  · exact hdecided

theorem announceBeat (h : Alike st w w') (info : BeatInfo) :
    Alike st (w.announceBeat info) (w'.announceBeat info) := by
  simp only [World.announceBeat]
  split
  · exact (h.announce _).announce _
  · exact h.announce _

theorem onTimelineEvent (h : Alike st w w') (event : TimelineEvent Float) (now : Float) :
    Alike st (w.onTimelineEvent event now) (w'.onTimelineEvent event now) := by
  cases event with
  | stageStarted stage loopCount start =>
    have hreset := h.change (fun w => { w with carryOver := true }) rfl rfl fun _ => rfl
    simp only [World.onTimelineEvent, h.stages]
    exact hreset.announce _
  | beat info =>
    have hbeat := h.announceBeat info
    have hdue : (w'.announceBeat info).dueSpawns info = (w.announceBeat info).dueSpawns info := by
      simp only [World.dueSpawns, hbeat.timeline, hbeat.stages]
    simp only [World.onTimelineEvent, hdue, hbeat.legTiming]
    have hspawned := foldl
      (fun h event => h.dispatchSpawn ((w.announceBeat info).legTiming now) event) hbeat
      ((w.announceBeat info).dueSpawns info)
    exact hspawned.change (fun w => w.broadcastBeat now) rfl rfl fun _ => rfl

end Alike

end World

end BulletHell
