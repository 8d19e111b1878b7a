import BulletHell.Proofs.Actor.Countdown
import BulletHell.Proofs.Pool.Heirs
import BulletHell.Proofs.World.Decisions

/-!
# Enemies that stay on screen

An enemy that is on screen before and after a call has either heard a beat in between, or it is on
the leg that it was on. What else happens to it, motion, fire, damage and pauses, leaves the leg
alone.

## Why the enemy is followed by its slot

Nothing else tells enemies apart. A slot is only given away in the part of a call that follows the
timeline, and only released in the part after it. So within one call, an enemy that is in an active
slot before and after is the same.

## Main definitions

* `Enemy.SameLeg`, `Enemy.Rests`, `Enemy.Hears` — what becomes of an enemy
* `DueEntry.Brings` — a table entry brings an enemy
* `World.beatHeard` — the beat that everybody hears in a call

## Main results

* `World.call_enemies` — the enemies in a call
* `World.meets_call` — an enemy that stays on screen
* `World.hears_of_brings` — an enemy that a call brings
* `World.moves_call` — the timeline in a call
-/

namespace BulletHell

/-! ### What becomes of an enemy -/

namespace Enemy

/-- The same leg. -/
def SameLeg (e e' : Enemy) : Prop :=
  e'.bearing = e.bearing

/-- The same leg, and waiting on it or not as before. -/
def Rests (e e' : Enemy) : Prop :=
  e'.bearing = e.bearing ∧ e'.waits = e.waits

/-- A beat was heard. -/
def Hears (e e' : Enemy) : Prop :=
  ∃ e₁ timing, Rests e e₁ ∧ e' = e₁.onBeat timing

theorem SameLeg.refl (e : Enemy) : SameLeg e e :=
  Eq.refl e.bearing

theorem SameLeg.trans {e e' e'' : Enemy} (h : SameLeg e e') (h' : SameLeg e' e'') :
    SameLeg e e'' :=
  Eq.trans h' h

theorem Rests.refl (e : Enemy) : Rests e e :=
  ⟨rfl, rfl⟩

theorem Rests.trans {e e' e'' : Enemy} (h : Rests e e') (h' : Rests e' e'') : Rests e e'' :=
  ⟨h'.1.trans h.1, h'.2.trans h.2⟩

end Enemy

/-- A wound does not change the leg. -/
theorem Skirmish.sameLeg_wound (s : Skirmish) (toll : Toll) (enemy : Enemy)
    (archetype : EnemyArchetype) (damage : Float32) :
    enemy.SameLeg (s.wound toll enemy archetype damage).2.1 := by
  have hwounded : enemy.SameLeg (enemy.takeDamage damage).2 := enemy.takeDamage_bearing damage
  simp only [Skirmish.wound]
  generalize enemy.takeDamage damage = struck at hwounded ⊢
  obtain ⟨dead, wounded⟩ := struck
  split
  · rfl
  · cases dead <;> exact hwounded

/-- An engagement does not, either. -/
theorem Skirmish.sameLeg_engage (s : Skirmish) (toll : Toll) (enemy : Enemy) :
    enemy.SameLeg (s.engage toll enemy).2.1 := by
  cases hknown : s.catalog.enemy? enemy.archetype with
  | none =>
    simp only [Skirmish.engage, hknown]
    rfl
  | some archetype =>
    rw [Skirmish.engage_eq hknown]
    exact s.sameLeg_wound _ enemy archetype _

namespace DueEntry

/-- The entry brings an enemy, in some slot. -/
def Brings (m : DueEntry) (i : Nat) : Prop :=
  i ∉ m.world.enemies.active.map (·.index) ∧ i ∈ m.after.enemies.active.map (·.index)

instance (m : DueEntry) (i : Nat) : Decidable (m.Brings i) :=
  inferInstanceAs (Decidable (_ ∧ _))

/-- An entry leaves the enemies alone, or it brings one. -/
theorem after_enemies (m : DueEntry) :
    m.after.enemies = m.world.enemies ∨ ∃ id archetype,
      m.world.enemies.spawn? (fun enemy => enemy.spawn ⟨id, archetype, m.entry.lane,
        m.entry.mirrored, m.entry.exempt, m.entry.route⟩ m.timing) = some m.after.enemies := by
  rw [after_eq]
  split
  · split
    · next id _ =>
      simp only [World.spawnEnemy]
      split
      · exact .inl rfl
      · next archetype _ =>
        split
        · exact .inl rfl
        · next enemies hspawned => exact .inr ⟨id, archetype, hspawned⟩
    · simp only [World.spawnPowerup]
      split <;> exact .inl rfl
  · exact .inl rfl

theorem lasts_after (m : DueEntry) : Pool.Lasts Eq m.world.enemies m.after.enemies := by
  rcases m.after_enemies with hsame | ⟨id, archetype, hspawned⟩
  · rw [hsame]
    exact .refl (fun _ => rfl) _
  · exact .spawn? (fun _ => rfl) hspawned

/-- **The enemy that an entry brings** has just entered. -/
theorem Brings.exists_spawn {m : DueEntry} {i : Nat} (h : m.Brings i) :
    ∃ (stale : Enemy) (s : EnemySpawn), s.route = m.entry.route ∧
      ⟨i, stale.spawn s m.timing⟩ ∈ m.after.enemies.active := by
  obtain ⟨hbefore, hafter⟩ := h
  rcases m.after_enemies with hsame | ⟨id, archetype, hspawned⟩
  · rw [hsame] at hafter
    exact absurd hafter hbefore
  · rw [Pool.spawn?] at hspawned
    split at hspawned
    · cases hspawned
    · next slot rest _ =>
      rw [← Option.some.inj hspawned] at hafter ⊢
      rw [List.map_append, List.mem_append] at hafter
      obtain rfl : i = slot.index := by simpa using hafter.resolve_left hbefore
      exact ⟨slot.item, _, rfl, List.mem_append_right _ List.mem_cons_self⟩

end DueEntry

namespace World

/-! ### A beat -/

theorem lasts_dispatchSpawn (timing : LegTiming) (w : World) (entries : List SpawnEvent) :
    Pool.Lasts Eq w.enemies (entries.foldl (dispatchSpawn timing) w).enemies :=
  List.foldlRecOn (motive := fun w' => Pool.Lasts Eq w.enemies w'.enemies) entries
    (dispatchSpawn timing) (.refl (fun _ => rfl) w.enemies)
    fun w' h entry _ => h.trans (DueEntry.lasts_after ⟨w', entry, timing⟩) fun _ _ _ => Eq.trans

/-- The enemies of an entry are still there after the other entries of the beat. -/
theorem lasts_of_mem_dueEntries {timing : LegTiming} {w : World} {entries : List SpawnEvent}
    {m : DueEntry} (h : m ∈ dueEntries timing w entries) :
    Pool.Lasts Eq m.after.enemies (entries.foldl (dispatchSpawn timing) w).enemies := by
  induction entries generalizing w with
  | nil => cases h
  | cons entry entries ih =>
    rcases List.mem_cons.mp h with rfl | hrest
    · exact lasts_dispatchSpawn timing _ entries
    · exact ih hrest

theorem announceBeat_enemies (w : World) (info : BeatInfo) :
    (w.announceBeat info).enemies = w.enemies := by
  simp only [announceBeat]
  split <;> rfl

/-- Everybody who is there hears the beat. -/
theorem lasts_broadcastBeat (w : World) (now : Float) :
    Pool.Lasts Enemy.Hears w.enemies (w.broadcastBeat now).enemies :=
  .update (fun e => ⟨e, _, .refl e, rfl⟩) w.enemies

theorem lasts_beat (w : World) (info : BeatInfo) (now : Float) :
    Pool.Lasts Enemy.Hears w.enemies (w.onTimelineEvent (.beat info) now).enemies := by
  have hspawned := lasts_dispatchSpawn ((w.announceBeat info).legTiming now) (w.announceBeat info)
    ((w.announceBeat info).dueSpawns info)
  rw [announceBeat_enemies] at hspawned
  exact hspawned.trans (lasts_broadcastBeat _ now) fun _ _ _ heq hhears => heq ▸ hhears

/-! ### The rest of a tick -/

theorem useBomb_enemies (w : World) : w.useBomb.2.enemies = w.enemies := by
  simp only [useBomb]
  split
  · rfl
  · split <;> rfl

theorem tickPlayer_enemies (w : World) (input : TickInput) (dt : Float32) :
    (w.tickPlayer input dt).enemies = w.enemies := by
  simp only [tickPlayer]
  split
  · exact useBomb_enemies _
  · rfl

/-- **The rest of a tick** brings no enemy, and leaves those that stay on their legs. -/
theorem heirs_act (w : World) (input : TickInput) (now : Float) (dt : Float32) :
    Pool.Heirs Enemy.SameLeg w.enemies (w.act input now dt).enemies := by
  have hmoved : Pool.Heirs Enemy.SameLeg w.enemies (w.tickEnemies now).enemies :=
    .sweep (fun fire e => e.tick_bearing now _ fire) w.enemies _
  have hengaged : ∀ w : World, Pool.Heirs Enemy.SameLeg w.enemies w.resolveHits.enemies := by
    intro w
    rw [resolveHits_enemies]
    exact .sweep w.skirmish.sameLeg_engage w.enemies _
  have hlater := hengaged
    ((((w.tickEnemies now).tickPlayer input dt).tickPowerups dt).tickShots dt)
  rw [show ((((w.tickEnemies now).tickPlayer input dt).tickPowerups dt).tickShots dt).enemies =
    (w.tickEnemies now).enemies from tickPlayer_enemies _ input dt] at hlater
  exact hmoved.trans hlater fun _ _ _ => Enemy.SameLeg.trans

/-! ### One call -/

variable {α : Type} [AudioPlayer α Float]

/-- The total of a beat. -/
def Heard.total? (x : Heard) : Option Int :=
  match x.event with
  | .stageStarted .. => none
  | .beat info => some info.total

/-- The beat that everybody hears in a call, by its total. -/
def beatHeard (s : World × α) (c : Call) : Option Int :=
  (heard s c).bind Heard.total?

/-- A run begins with a stage, if with anything. -/
theorem start_cases (t : Timeline Float) (now : Float) (stages : List (Stage Float)) (audio : α) :
    (t.start now stages audio).1 = none ∨
      ∃ i loopCount start, (t.start now stages audio).1 = some (.stageStarted i loopCount start) := by
  rw [Timeline.start]
  split
  · exact .inl rfl
  · rcases Timeline.roll_eq { Timeline.idle t.leadIn with state := .active } now stages audio with
      hnone | ⟨stage, t', -, hsome, -⟩
    · exact .inl (congrArg Prod.fst hnone)
    · exact .inr ⟨_, _, _, congrArg Prod.fst hsome⟩

/-- It begins without enemies. -/
theorem startGame_enemies (w : World) (now : Float) (audio : α) :
    (w.startGame now audio).1.enemies = w.enemies.clear := by
  rw [startGame_eq]
  rcases start_cases w.timeline now w.catalog.stages audio with hnone | ⟨i, loopCount, start, hsome⟩
  · rw [hnone]
    rfl
  · rw [hsome]
    rfl

theorem startsStage_of_begun {w : World} {now : Float} {audio : α} {x : Heard}
    (h : begun w now audio = some x) : x.startsStage = true := by
  rw [begun] at h
  rcases start_cases w.timeline now w.catalog.stages audio with hnone | ⟨i, loopCount, start, hsome⟩
  · rw [hnone] at h
    cases h
  · rw [hsome] at h
    obtain rfl := Option.some.inj h
    rfl

variable {s : World × α} {c : Call}

/-- **A beat is heard in a tick that is played.** -/
theorem exists_followed {x : Heard} (h : heard s c = some x) (hbeat : x.startsStage = false) :
    ∃ p, played s c = some p ∧ followed p = some x := by
  have hstart : ∀ {w : World} {now : Float} {audio : α}, begun w now audio ≠ some x := by
    intro w now audio hbegun
    rw [startsStage_of_begun hbegun] at hbeat
    cases hbeat
  cases c with
  | tick input now dt =>
    rw [heard] at h
    split at h
    · exact absurd h hstart
    · exact Option.bind_eq_some_iff.mp h
  | startGame now => exact absurd h hstart
  | pause => cases h
  | resume => cases h
  | drainEvents => cases h

/-- Nothing happens but a pause: enemies rest, and the timeline keeps its place. -/
structure Bides (w w' : World) : Prop where
  catalog : w'.catalog = w.catalog
  enemies : Pool.Lasts Enemy.Rests w.enemies w'.enemies
  stage : w'.timeline.stage = w.timeline.stage
  totalBeats : w'.timeline.totalBeats = w.timeline.totalBeats
  cursor : w'.timeline.cursor = w.timeline.cursor

theorem Bides.refl (w : World) : Bides w w :=
  ⟨rfl, .refl Enemy.Rests.refl w.enemies, rfl, rfl, rfl⟩

theorem Bides.trans {w w' w'' : World} (h : Bides w w') (h' : Bides w' w'') : Bides w w'' where
  catalog := h'.catalog.trans h.catalog
  enemies := h.enemies.trans h'.enemies fun _ _ _ => Enemy.Rests.trans
  stage := h'.stage.trans h.stage
  totalBeats := h'.totalBeats.trans h.totalBeats
  cursor := h'.cursor.trans h.cursor

theorem bides_pause (w : World) (now : Float) (audio : α) : Bides w (w.pause now audio).2.1 := by
  rcases w.pause_cases now audio with hnone | ⟨hplaying, hactive⟩
  · rw [hnone]
    exact .refl w
  · rw [pause_eq hplaying hactive]
    exact ⟨rfl, .refl Enemy.Rests.refl w.enemies, rfl, rfl, rfl⟩

theorem bides_resume (w : World) (now : Float) (audio : α) :
    Bides w (w.resume now audio).2.1 := by
  rcases w.resume_cases now audio with hnone | ⟨hpaused, since, hstate⟩
  · rw [hnone]
    exact .refl w
  · rw [resume_eq hpaused hstate]
    exact ⟨rfl, .update (fun e => ⟨e.onUnpause_bearing _, rfl⟩) w.enemies, rfl, rfl, rfl⟩

theorem bides_age (w : World) (dt : Float32) : Bides w (w.age dt) := by
  rw [age]
  split
  · exact ⟨rfl, .refl Enemy.Rests.refl w.enemies, rfl, rfl, rfl⟩
  · exact .refl w

/-- A tick up to the point where it is played. -/
theorem bides_ready (w : World) (input : TickInput) (now : Float) (audio : α) (dt : Float32) :
    Bides w (w.ready input now audio dt).1 := by
  refine (w.bides_age dt).trans ?_
  rw [ready]
  split
  · rw [togglePause]
    split
    · exact bides_pause _ now audio
    · exact bides_resume _ now audio
    · exact .refl _
  · exact .refl _

theorem bides_played {p : PlayedTick α} (h : played s c = some p) : Bides s.1 p.world := by
  cases c with
  | tick input now dt =>
    rw [(played_tick_eq_some h).1]
    exact s.1.bides_ready input now s.2 dt
  | _ => cases h

/-- What a tick comes to, and what it follows up on: it begins a run, it is played, or it follows up
on nothing and ends the run at most. -/
theorem tick_cases (s : World × α) (input : TickInput) (now : Float) (dt : Float32) :
    call s (.tick input now dt) = (s.1.age dt).startGame now s.2 ∧
        heard s (.tick input now dt) = begun (s.1.age dt) now s.2 ∨
      (∃ p, played s (.tick input now dt) = some p ∧
        call s (.tick input now dt) = p.world.simulate p.input p.now p.audio p.dt ∧
        heard s (.tick input now dt) = followed p) ∨
      heard s (.tick input now dt) = none ∧
        (call s (.tick input now dt) = s.1.ready input now s.2 dt ∨
          call s (.tick input now dt) =
            (s.1.ready input now s.2 dt).1.endGame (s.1.ready input now s.2 dt).2) := by
  by_cases hrestart : input.restart = true
  · left
    rw [call, tick_eq, if_pos hrestart, heard, if_pos hrestart]
    exact ⟨rfl, rfl⟩
  · right
    have hheard : heard s (.tick input now dt) =
        (played s (.tick input now dt)).bind followed := if_neg hrestart
    cases hplayed : played s (.tick input now dt) with
    | some p =>
      rw [hplayed] at hheard
      exact .inl ⟨p, rfl, (call_of_played hplayed).1, hheard⟩
    | none =>
      rw [hplayed] at hheard
      refine .inr ⟨hheard, ?_⟩
      rcases tick_of_not_played hplayed (Bool.eq_false_iff.mpr hrestart) with
        ⟨hcall, -⟩ | ⟨hcall, -, -⟩
      · exact .inl hcall
      · exact .inr hcall

/-- What an enemy does that is there when the timeline is followed. -/
def Meets : Option Int → Enemy → Enemy → Prop
  | none => Enemy.Rests
  | some _ => Enemy.Hears

theorem Meets.of_rests {beat : Option Int} {e e' e'' : Enemy} (h : e.Rests e')
    (h' : Meets beat e' e'') : Meets beat e e'' := by
  cases beat with
  | none => exact h.trans h'
  | some total =>
    obtain ⟨e₁, timing, hrests, rfl⟩ := h'
    exact ⟨e₁, timing, h.trans hrests, rfl⟩

theorem followed_enemies {p : PlayedTick α} {x : Heard} (h : followed p = some x) :
    x.world.enemies = p.world.enemies := by
  obtain ⟨event, -, rfl⟩ := Option.map_eq_some_iff.mp h
  rfl

theorem lasts_followTimeline (p : PlayedTick α) :
    Pool.Lasts (Meets ((followed p).bind Heard.total?)) p.world.enemies
      ({ p.world with tickCount := p.world.tickCount + 1 }.followTimeline p.now p.audio).1.enemies
      := by
  rw [followTimeline_eq]
  cases hfollowed : followed p with
  | none => exact .refl Enemy.Rests.refl _
  | some x =>
    rw [← followed_enemies hfollowed]
    obtain ⟨w, event, now⟩ := x
    cases event with
    | stageStarted => exact .refl Enemy.Rests.refl w.enemies
    | beat info => exact lasts_beat w info now

/-- **One call.** It empties the screen, or nobody is released up to some point and nobody is
spawned from there on. -/
theorem call_enemies (s : World × α) (c : Call) :
    (call s c).1.enemies = s.1.enemies.clear ∨
      ∃ p, Pool.Lasts (Meets (beatHeard s c)) s.1.enemies p ∧
        Pool.Heirs Enemy.SameLeg p (call s c).1.enemies := by
  have hquiet : ∀ {w : World}, heard s c = none →
      Pool.Lasts Enemy.Rests s.1.enemies w.enemies →
      ∃ p, Pool.Lasts (Meets (beatHeard s c)) s.1.enemies p ∧
        Pool.Heirs Enemy.SameLeg p w.enemies := by
    intro w hnone hlasts
    refine ⟨w.enemies, ?_, .refl Enemy.SameLeg.refl w.enemies⟩
    rw [beatHeard, hnone]
    exact hlasts
  cases c with
  | tick input now dt =>
    have hready := (s.1.bides_ready input now s.2 dt).enemies
    rcases tick_cases s input now dt with
      ⟨hcall, -⟩ | ⟨p, hplayed, hcall, hheard⟩ | ⟨hnone, hcall | hcall⟩
    · left
      rw [hcall, startGame_enemies, age]
      split <;> rfl
    · right
      have hfollowed := (bides_played hplayed).enemies.trans (lasts_followTimeline p)
        fun _ _ _ => Meets.of_rests
      rw [hcall, simulate_eq, beatHeard, hheard]
      exact ⟨_, hfollowed, heirs_act _ p.input p.now p.dt⟩
    · right
      rw [hcall]
      exact hquiet hnone hready
    · right
      rw [hcall]
      exact hquiet hnone hready
  | startGame now => exact .inl (s.1.startGame_enemies now s.2)
  | pause now => exact .inr (hquiet rfl (s.1.bides_pause now s.2).enemies)
  | resume now => exact .inr (hquiet rfl (s.1.bides_resume now s.2).enemies)
  | drainEvents => exact .inr (hquiet rfl (.refl Enemy.Rests.refl s.1.enemies))

/-- A call keeps the slots of the enemies. -/
theorem indices_call (s : World × α) (c : Call) :
    (call s c).1.enemies.indices.Perm s.1.enemies.indices := by
  rcases call_enemies s c with hclear | ⟨p, hlasts, hheirs⟩
  · rw [hclear]
    exact s.1.enemies.indices_clearWith _ ()
  · exact hheirs.indices.trans hlasts.indices

theorem indices_play (s : World × α) (calls : List Call) :
    (play s.1 s.2 calls).1.enemies.indices.Perm s.1.enemies.indices := by
  induction calls generalizing s with
  | nil => exact .refl _
  | cons c calls ih => exact (ih (call s c)).trans (indices_call s c)

theorem nodup_play (catalog : Catalog) (audio : α) (calls : List Call) :
    (play (new catalog) audio calls).1.enemies.indices.Nodup := by
  refine (indices_play (new catalog, audio) calls).nodup_iff.mpr ?_
  rw [show (new catalog, audio).1.enemies.indices = List.range catalog.settings.enemyPool from
    Pool.indices_new _ _]
  exact List.nodup_range

variable {i : Nat} {e e' : Enemy}

/-- **An enemy that stays on screen** in a call keeps its leg, unless it hears a beat. -/
theorem meets_call (hnodup : s.1.enemies.indices.Nodup) (here : ⟨i, e⟩ ∈ s.1.enemies.active)
    (there : ⟨i, e'⟩ ∈ (call s c).1.enemies.active) :
    ∃ e₁, Meets (beatHeard s c) e e₁ ∧ e₁.SameLeg e' := by
  rcases call_enemies s c with hclear | ⟨p, hlasts, hheirs⟩
  · rw [hclear] at there
    cases there
  · exact hlasts.meets hheirs hnodup here there

/-- **An enemy that a call brings** has entered by then, and has heard the beat that brought it. -/
theorem hears_of_brings (hnodup : s.1.enemies.indices.Nodup) {m : DueEntry} (hm : m ∈ comesDue s c)
    (hbrings : m.Brings i) (there : ⟨i, e⟩ ∈ (call s c).1.enemies.active) :
    ∃ (stale : Enemy) (spawn : EnemySpawn) (e₁ : Enemy), spawn.route = m.entry.route ∧
      (stale.spawn spawn m.timing).Hears e₁ ∧ e₁.SameLeg e := by
  cases hheard : heard s c with
  | none =>
    rw [comesDue, hheard] at hm
    cases hm
  | some x =>
    rw [comesDue, hheard] at hm
    obtain ⟨w, event, now⟩ := x
    cases event with
    | stageStarted => cases hm
    | beat info =>
      obtain ⟨p, hplayed, hfollowed⟩ := exists_followed hheard rfl
      obtain ⟨stale, spawn, hroute, hspawned⟩ := hbrings.exists_spawn
      have hlasts := (lasts_of_mem_dueEntries hm).trans (lasts_broadcastBeat _ now)
        fun _ _ _ heq hhears => heq ▸ hhears
      have hheirs := heirs_act (w.onTimelineEvent (.beat info) now) p.input p.now p.dt
      have hcall : (call s c).1 = (w.onTimelineEvent (.beat info) now).act p.input p.now p.dt := by
        rw [(call_of_played hplayed).1, simulate_eq, followTimeline_eq, hfollowed]
      have hslots := indices_call s c
      rw [hcall] at there hslots
      have hperm : m.after.enemies.indices.Perm s.1.enemies.indices :=
        hlasts.indices.symm.trans (hheirs.indices.symm.trans hslots)
      obtain ⟨e₁, hhears, hsame⟩ :=
        hlasts.meets hheirs (hperm.nodup_iff.mpr hnodup) hspawned there
      exact ⟨stale, spawn, e₁, hroute, hhears, hsame⟩

/-! ### The timeline in a call -/

theorem Bides.moves {w w' : World} {t' : Timeline Float} {answer : List (TimelineEvent Float)}
    (h : Bides w w') (hmoves : Timeline.Moves w'.catalog.stages w'.timeline answer t') :
    Timeline.Moves w.catalog.stages w.timeline answer t' := by
  rw [h.catalog] at hmoves
  cases hmoves with
  | stays hstage htotal hcursor =>
    exact .stays (hstage.trans h.stage) (htotal.trans h.totalBeats) (hcursor.trans h.cursor)
  | leaves hstage => exact .leaves hstage
  | begins hknown hcurrent htotal hcursor => exact .begins hknown hcurrent htotal hcursor
  | beats hcurrent hknown hcounts =>
    refine .beats (h.stage ▸ hcurrent) hknown ⟨?_, ?_, ?_, ?_, hcounts.totalBeats_eq,
      hcounts.cursor_eq⟩
    · rw [← h.totalBeats]
      exact hcounts.total
    · rw [← h.cursor]
      exact hcounts.first
    · rw [← h.totalBeats, ← h.cursor]
      exact hcounts.stop
    · rw [← h.stage]
      exact hcounts.stage_eq

theorem Bides.stays {w w' : World} (h : Bides w w') :
    Timeline.Moves w.catalog.stages w.timeline [] w'.timeline :=
  .stays h.stage h.totalBeats h.cursor

theorem moves_startGame (w : World) (now : Float) (audio : α) :
    Timeline.Moves w.catalog.stages w.timeline ((begun w now audio).map (·.event)).toList
      (w.startGame now audio).1.timeline := by
  have hmoves := w.timeline.moves_start now w.catalog.stages audio
  rw [startGame_eq, begun]
  cases hanswer : (w.timeline.start now w.catalog.stages audio).1 with
  | none =>
    rw [hanswer] at hmoves
    exact hmoves
  | some event =>
    rw [hanswer] at hmoves
    dsimp only
    rw [(keeps_onTimelineEvent _ event now).timeline]
    exact hmoves

theorem moves_simulate (p : PlayedTick α) :
    Timeline.Moves p.world.catalog.stages p.world.timeline
      ((followed p).map (·.event)).toList
      (p.world.simulate p.input p.now p.audio p.dt).1.timeline := by
  have hmoves := p.world.timeline.moves_advance p.now p.world.catalog.stages p.audio
  rw [(p.world.keeps_simulate p.input p.now p.audio p.dt).timeline, followed, Option.map_map]
  rw [show ((fun x : Heard => x.event) ∘ fun event => _) = id from rfl, Option.map_id]
  exact hmoves

/-- **A call of the game** moves the timeline, and what it follows up on is the answer. -/
theorem moves_call (s : World × α) (c : Call) :
    Timeline.Moves s.1.catalog.stages s.1.timeline ((heard s c).map (·.event)).toList
      (call s c).1.timeline := by
  cases c with
  | tick input now dt =>
    have hready := s.1.bides_ready input now s.2 dt
    rcases tick_cases s input now dt with
      ⟨hcall, hheard⟩ | ⟨p, hplayed, hcall, hheard⟩ | ⟨hnone, hcall | hcall⟩
    · rw [hcall, hheard]
      exact (s.1.bides_age dt).moves (moves_startGame _ now s.2)
    · rw [hcall, hheard]
      exact (bides_played hplayed).moves (moves_simulate p)
    · rw [hcall, hnone]
      exact hready.stays
    · rw [hcall, hnone]
      exact .leaves rfl
  | startGame now => exact moves_startGame s.1 now s.2
  | pause now => exact (s.1.bides_pause now s.2).stays
  | resume now => exact (s.1.bides_resume now s.2).stays
  | drainEvents => exact (Bides.refl s.1).stays

end World

end BulletHell
