import BulletHell.Proofs.World.Audience
import BulletHell.Proofs.World.Safety
import BulletHell.Proofs.World.TwinTick

/-!
# A restart forgets the past

A world that restarts is as good as new, whatever happened to it before. Two games of one catalog
may have been played in any way and for any time. Once both restart at the same moment, nobody can
tell from then on which is which.

They are not equal even then: their pools go on with different slots, and what earlier runs left in
the slots is never wiped. That this stays hidden is what twins are for. A new game is its own twin,
and so is every world that is reached from it. So each world is known to have nothing in its slots
that could come to light, and emptying all pools makes twins of any two of them.

It is needed that every leg of an enemy takes time. A first leg that is a jump leaves in place where
an earlier enemy of the slot began its leg, and a pause brings that to light.

## Main definitions

* `World.Scene`, `World.scene` — what can be seen of a world
* `World.restarted` — the events are collected, and a tick restarts the game

## Main results

* `World.Twin.startGame` — any two worlds that start a run become twins
* `World.Twin.call` — calls leave twins behind
* `World.restart_forgets`
-/

namespace BulletHell

namespace World

/-- All that can be seen of a world: the state of the game, and what is active in the pools, in
order. -/
structure Scene where
  phase : GamePhase
  timeline : Timeline Float
  player : Player
  score : Nat
  nextExtend : Nat
  extendPending : Bool
  tickCount : Nat
  rng : Pcg32
  carryOver : Bool
  events : Array GameEvent
  enemies : List Enemy
  enemyShots : List Shot
  playerShots : List Shot
  neutralShots : List Shot
  effects : List Effect
  powerups : List Powerup

def scene (w : World) : Scene where
  phase := w.phase
  timeline := w.timeline
  player := w.player
  score := w.score
  nextExtend := w.nextExtend
  extendPending := w.extendPending
  tickCount := w.tickCount
  rng := w.rng
  carryOver := w.carryOver
  events := w.events
  enemies := w.enemies.items.map Enemy.shown
  enemyShots := w.shots.enemy.items
  playerShots := w.shots.player.items
  neutralShots := w.shots.neutral.items
  effects := w.effects.items
  powerups := w.powerups.items

namespace Twin

variable {c : Catalog} {w w' : World}

/-- **Twins look the same.** -/
theorem scene (h : Twin c w w') : w'.scene = w.scene := by
  have henemies := Enemy.map_eq_of_passes h.enemies.items (f := Enemy.shown) fun he => he.shown
  have hitems : ∀ {ω : Type} {capacity : Nat} {p p' : Pool ω}, Pool.Twin Eq capacity p p' →
      p'.items = p.items := fun htwin => (List.forall₂_eq_eq_eq ▸ htwin.items).symm
  simp only [World.scene, h.phase, h.timeline, h.player, h.score, h.nextExtend, h.extendPending,
    h.tickCount, h.rng, h.carryOver, h.events, henemies, hitems h.shots.enemy,
    hitems h.shots.player, hitems h.shots.neutral, hitems h.effects, hitems h.powerups]

/-- A game that has not started is its own twin. -/
theorem new (c : Catalog) : Twin c (World.new c) (World.new c) :=
  ⟨⟨rfl, rfl, rfl⟩, (World.new c).pools, rfl,
    .new (fun _ => ⟨rfl, ⟨_, rfl⟩, fun _ => rfl⟩) _,
    ⟨.new (fun _ => rfl) _, .new (fun _ => rfl) _, .new (fun _ => rfl) _⟩,
    .new (fun _ => rfl) _, .new (fun _ => rfl) _⟩

/-! ### Runs that begin -/

/-- **Any two worlds** of a catalog with the same events in the queue are twins once everything is
afresh. -/
theorem afresh (h : Twin c w w) (h' : Twin c w' w') (hevents : w'.events = w.events)
    {timeline : Timeline Float} (hleadIn : timeline.leadIn = c.settings.stageLeadIn)
    (phase : GamePhase) :
    Twin c { w.afresh timeline with phase := phase } { w'.afresh timeline with phase := phase } := by
  have hcatalog : w'.catalog = w.catalog := h'.belongs.catalog.trans h.belongs.catalog.symm
  have hplayer := Player.reset_eq (h'.belongs.limits.trans h.belongs.limits.symm)
    w.catalog.settings.player
  refine ⟨⟨h.belongs.catalog, hleadIn, h.belongs.limits⟩, w'.clearPools.pools, ?_,
    h.enemies.clear h'.enemies,
    ⟨h.shots.enemy.clear h'.shots.enemy, h.shots.player.clear h'.shots.player,
      h.shots.neutral.clear h'.shots.neutral⟩,
    h.effects.clear h'.effects, h.powerups.clear h'.powerups⟩
  simp only [World.afresh, withPools, World.pools, clearPools, hcatalog, hevents, hplayer]

variable {α β : Type} [AudioPlayer α Float] [AudioPlayer β Float] {R : α → β → Prop} {a : α} {b : β}

/-- **The start of a run** makes twins of any two worlds of a catalog with the same events in the
queue. -/
theorem startGame (hc : c.Timed) (h : Twin c w w) (h' : Twin c w' w')
    (hevents : w'.events = w.events) (hR : AudioPlayer.Alike R) (hab : R a b) (now : Float) :
    Twin c (w.startGame now a).1 (w'.startGame now b).1 ∧
      R (w.startGame now a).2 (w'.startGame now b).2 := by
  have hcatalog : w'.catalog = w.catalog := h'.belongs.catalog.trans h.belongs.catalog.symm
  have htimeline : w'.timeline.start now w.catalog.stages b =
      w.timeline.start now w.catalog.stages b :=
    Timeline.start_eq_of_leadIn (h'.belongs.leadIn.trans h.belongs.leadIn.symm) _ _ _
  obtain ⟨b', hstart, hb'⟩ := Timeline.start_alike hR hab w.timeline now w.catalog.stages
  have hafresh := h.afresh h' hevents
    ((w.timeline.leadIn_start now w.catalog.stages a).trans h.belongs.leadIn)
  rw [startGame_eq, startGame_eq, hcatalog, htimeline, hstart]
  dsimp only
  split
  · exact ⟨(hafresh .playing).onTimelineEvent hc _ now, hb'⟩
  · exact ⟨hafresh .idle, hb'⟩

/-! ### Calls -/

theorem age (h : Twin c w w') (dt : Float32) : Twin c (w.age dt) (w'.age dt) := by
  simp only [World.age, h.phase]
  split
  · exact h.withEffects (h.effects.retain_eq _)
  · exact h

theorem pause (h : Twin c w w') (hR : AudioPlayer.Alike R) (hab : R a b) (now : Float) :
    Twin c (w.pause now a).2.1 (w'.pause now b).2.1 ∧
      R (w.pause now a).2.2 (w'.pause now b).2.2 := by
  simp only [World.pause, h.phase, h.timeline]
  split
  · rcases Timeline.pause?_alike hR hab w.timeline now with
      ⟨hnone, hnone'⟩ | ⟨t', a', b', hsome, hsome', hleadIn, hab'⟩
    · simp only [hnone, hnone']
      exact ⟨h, hab⟩
    · simp only [hsome, hsome']
      exact ⟨((h.withTimeline hleadIn).withPhase .paused).announce .paused, hab'⟩
  · exact ⟨h, hab⟩

theorem resume (h : Twin c w w') (hR : AudioPlayer.Alike R) (hab : R a b) (now : Float) :
    Twin c (w.resume now a).2.1 (w'.resume now b).2.1 ∧
      R (w.resume now a).2.2 (w'.resume now b).2.2 := by
  simp only [World.resume, h.phase, h.timeline]
  split
  · rcases Timeline.resume?_alike hR hab w.timeline now with
      ⟨hnone, hnone'⟩ | ⟨lost, t', a', b', hsome, hsome', hleadIn, hab'⟩
    · simp only [hnone, hnone']
      exact ⟨h, hab⟩
    · simp only [hsome, hsome']
      have henemies := h.enemies.update (Enemy.kinship_passes _)
        (fun e => e.onUnpause lost) fun he => he.onUnpause lost
      exact ⟨(((h.withTimeline hleadIn).withEnemies henemies).withPhase .playing).announce
        (.resumed lost), hab'⟩
  · exact ⟨h, hab⟩

theorem togglePause (h : Twin c w w') (hR : AudioPlayer.Alike R) (hab : R a b) (now : Float) :
    Twin c (w.togglePause now a).1 (w'.togglePause now b).1 ∧
      R (w.togglePause now a).2 (w'.togglePause now b).2 := by
  simp only [World.togglePause, h.phase]
  split
  · exact h.pause hR hab now
  · exact h.resume hR hab now
  · exact ⟨h, hab⟩

theorem tick (hc : c.Timed) (h : Twin c w w') (hR : AudioPlayer.Alike R) (hab : R a b)
    (input : TickInput) (now : Float) (dt : Float32) :
    Twin c (w.tick input now a dt).1 (w'.tick input now b dt).1 ∧
      R (w.tick input now a dt).2 (w'.tick input now b dt).2 := by
  have haged := h.age dt
  rw [tick_eq, tick_eq]
  split
  · exact haged.left.startGame hc haged.right haged.events hR hab now
  · split
    · obtain ⟨htoggled, hab'⟩ := haged.togglePause hR hab now
      exact htoggled.goOn hc hR hab' input now dt
    · exact haged.goOn hc hR hab input now dt

/-- **One call**, made of both. -/
theorem call (hc : c.Timed) (h : Twin c w w') (hR : AudioPlayer.Alike R) (hab : R a b)
    (x : Call) :
    Twin c (World.call (w, a) x).1 (World.call (w', b) x).1 ∧
      R (World.call (w, a) x).2 (World.call (w', b) x).2 := by
  cases x with
  | tick input now dt => exact h.tick hc hR hab input now dt
  | startGame now => exact h.left.startGame hc h.right h.events hR hab now
  | pause now => exact h.pause hR hab now
  | resume now => exact h.resume hR hab now
  | drainEvents => exact ⟨h.withEvents #[], hab⟩

/-- **A whole session.** It leaves twins behind and hands over the same events. -/
theorem play (hc : c.Timed) (hR : AudioPlayer.Alike R) {s : World × α} {s' : World × β}
    (h : Twin c s.1 s'.1) (hab : R s.2 s'.2) (calls : List Call) :
    Twin c (calls.foldl World.call s).1 (calls.foldl World.call s').1 ∧
      R (calls.foldl World.call s).2 (calls.foldl World.call s').2 ∧
      delivered s' calls = delivered s calls := by
  induction calls generalizing s s' with
  | nil => exact ⟨h, hab, by rw [delivered, delivered, h.events]⟩
  | cons x calls ih =>
    obtain ⟨hcalled, hab'⟩ := h.call hc hR hab x
    obtain ⟨htwin, hafter, hdelivered⟩ := ih hcalled hab'
    refine ⟨htwin, hafter, ?_⟩
    rw [delivered, delivered, hdelivered, h.events]

end Twin

/-! ### Restarts -/

theorem events_age (w : World) (dt : Float32) : (w.age dt).events = w.events := by
  rw [age]
  split <;> rfl

section Restart

variable {α β : Type} [AudioPlayer α Float] [AudioPlayer β Float] {R : α → β → Prop}

/-- The events are collected, and the next tick restarts the game. -/
def restarted (s : World × α) (input : TickInput) (now : Float) (dt : Float32) : World × α :=
  call (call s .drainEvents) (.tick { input with restart := true } now dt)

theorem restarted_eq (s : World × α) (input : TickInput) (now : Float) (dt : Float32) :
    restarted s input now dt = ({ s.1 with events := #[] }.age dt).startGame now s.2 :=
  (tick_eq s.1.drainEvents.2 { input with restart := true } now s.2 dt).trans (if_pos rfl)

/-- Every world that is reached from a new game is its own twin. -/
theorem twin_play {c : Catalog} (hc : c.Timed) (audio : α) (calls : List Call) :
    Twin c (play (new c) audio calls).1 (play (new c) audio calls).1 := by
  have hnew : Twin c (new c, audio).1 (new c, audio).1 := .new c
  exact (hnew.play hc AudioPlayer.alike_eq rfl calls).1

/-- **A restart forgets the past.** Take a catalog in which every leg of an enemy takes time, and
any two worlds that are reached from its new game by any calls, with audio that answers alike.
Let the events be collected and a tick restart each of them at the same time. Then the same calls,
whatever they are, lead to worlds that look the same, and hand over the same events on the way. -/
theorem restart_forgets {c : Catalog} (hc : c.Timed) (hR : AudioPlayer.Alike R) {a : α} {b : β}
    {past past' : List Call} (haudio : R (play (new c) a past).2 (play (new c) b past').2)
    (input input' : TickInput) (now : Float) (dt dt' : Float32) (calls : List Call) :
    (calls.foldl call (restarted (play (new c) b past') input' now dt')).1.scene =
        (calls.foldl call (restarted (play (new c) a past) input now dt)).1.scene ∧
      delivered (restarted (play (new c) b past') input' now dt') calls =
        delivered (restarted (play (new c) a past) input now dt) calls := by
  have hpast := ((twin_play hc a past).withEvents #[]).age dt
  have hpast' := ((twin_play hc b past').withEvents #[]).age dt'
  obtain ⟨htwin, hab⟩ := hpast.startGame hc hpast'
    (by rw [events_age, events_age]) hR haudio now
  rw [← restarted_eq _ input, ← restarted_eq _ input'] at htwin hab
  obtain ⟨hafter, -, hdelivered⟩ := htwin.play hc hR hab calls
  exact ⟨hafter.scene, hdelivered⟩

end Restart

/-- A silent device never learns or forgets a track. -/
theorem tracks_play {c : Catalog} (hc : c.Timed) (audio : HeadlessAudio Float)
    (calls : List Call) : (play (new c) audio calls).2.tracks = audio.tracks := by
  have hnew : Twin c (new c, audio).1 (new c, audio).1 := .new c
  have hknown : HeadlessAudio.BothKnow audio.tracks (new c, audio).2 (new c, audio).2 := ⟨rfl, rfl⟩
  exact (hnew.play hc (HeadlessAudio.alike_bothKnow audio.tracks) hknown calls).2.1.1

theorem timed_oneDroneCatalog : oneDroneCatalog.Timed where
  exit := by decide
  steps stage hstage event hevent route hroute := by
    obtain rfl := List.mem_singleton.mp hstage
    obtain rfl := List.mem_singleton.mp hevent
    cases hroute

/-- The game with one drone, restarted after the drone came. -/
def oneDroneAgain : World × HeadlessAudio Float :=
  restarted (play (new oneDroneCatalog) (.new 60) oneDroneCalls) { fire := true } 5 0.01

/-- The same game, restarted before anything happened. -/
def oneDroneFirst : World × HeadlessAudio Float :=
  restarted (play (new oneDroneCatalog) (.new 60) []) { bomb := true } 5 0.02

/-- The drone comes, and shots fly both ways. -/
theorem restart_forgets_of_oneDrone :
    oneDroneCatalog.Timed ∧
      HeadlessAudio.BothKnow ([], 60)
        (play (new oneDroneCatalog) (HeadlessAudio.new 60) oneDroneCalls).2
        (play (new oneDroneCatalog) (HeadlessAudio.new 60) []).2 ∧
      ([.tick {} 6 0.02, .tick { fire := true } 6.02 0.02].foldl call oneDroneFirst).1.scene =
        ([.tick {} 6 0.02, .tick { fire := true } 6.02 0.02].foldl call oneDroneAgain).1.scene ∧
      delivered oneDroneFirst [.tick {} 6 0.02, .tick { fire := true } 6.02 0.02] =
        delivered oneDroneAgain [.tick {} 6 0.02, .tick { fire := true } 6.02 0.02] := by
  have haudio : HeadlessAudio.BothKnow ([], 60)
      (play (new oneDroneCatalog) (HeadlessAudio.new 60) oneDroneCalls).2
      (play (new oneDroneCatalog) (HeadlessAudio.new 60) []).2 :=
    ⟨tracks_play timed_oneDroneCatalog _ _, rfl⟩
  exact ⟨timed_oneDroneCatalog, haudio, restart_forgets timed_oneDroneCatalog
    (HeadlessAudio.alike_bothKnow _) haudio { fire := true } { bomb := true } 5 0.01 0.02 _⟩

end World

end BulletHell
