import BulletHell.Proofs.Timeline.Place
import BulletHell.Proofs.World.Accounts
import BulletHell.Proofs.World.Safety

/-!
# Spawn decisions

Whether a table entry is carried out is decided when it comes due, and an entry may be decided as
the one before it. The world remembers a single decision for that, in one flag, across beats, late
ticks and pauses. A log of the entries that came due says what the flag stands for at all times.

The log has the entries of the stage that is played, from its start on. Each is noted with the world
as it finds it: the enemies that an earlier entry of the same beat brought are there already.

## Why the log is not read off the events

An entry that is held back emits nothing, and still counts for the next one. So the log is kept by
what the timeline hands out, and the events are a matter of the outcome.

## Main definitions

* `DueEntry`, `DueEntry.decision` — an entry that comes due, and how it is decided
* `DueEntry.Outcome` — what becomes of it
* `World.heard` — the event of the timeline that a call follows up on
* `World.comesDue` — the entries that come due in a call
* `Decided` — the decisions of a log, one after the other

## Main results

* `DueEntry.outcome` — one entry
* `World.decided_dueEntries` — the entries of one beat
* `World.Logged.call`, `World.spawn_decisions_follow_the_table` — the entries of a stage
-/

namespace BulletHell

/-! ### One entry -/

/-- A table entry that comes due, with the world as it finds it. -/
structure DueEntry where
  world : World
  entry : SpawnEvent
  timing : LegTiming

namespace DueEntry

/-- The world after the entry. -/
def after (m : DueEntry) : World :=
  m.world.dispatchSpawn m.timing m.entry

/-- How the entry is decided, after another one was decided. -/
def decision (m : DueEntry) (previous : Bool) : Bool :=
  match m.entry.condition with
  | .none => true
  | .noEnemiesPresent => m.world.enemies.items.all (·.exempt)
  | .carryOver => previous

/-- Has the pool that the entry draws on no free slot? -/
def full (m : DueEntry) : Bool :=
  match m.entry.target with
  | .enemy _ => m.world.enemies.free.isEmpty
  | .powerup => m.world.powerups.free.isEmpty

/-- What becomes of an entry that was decided. Nothing changes but what is said here. -/
inductive Outcome (m : DueEntry) : Bool → Prop where
  /-- It is held back. -/
  | held (after : m.after = { m.world with carryOver := false }) : Outcome m false
  /-- There is no room for it. -/
  | dropped (full : m.full = true)
      (after : m.after =
        { m.world with
          carryOver := true
          events := m.world.events.push (.spawnDropped m.entry.beat) }) : Outcome m true
  /-- It brings an enemy. -/
  | enemy {id : EnemyId} {archetype : EnemyArchetype} {slot : Slot Enemy} {rest : List (Slot Enemy)}
      (target : m.entry.target = .enemy id) (known : m.world.catalog.enemy? id = some archetype)
      (room : m.world.enemies.free = slot :: rest)
      (after : m.after =
        { m.world with
          carryOver := true
          enemies :=
            ⟨m.world.enemies.active ++
              [⟨slot.index, slot.item.spawn ⟨id, archetype, m.entry.lane, m.entry.mirrored,
                m.entry.exempt, m.entry.route⟩ m.timing⟩], rest⟩
          events := m.world.events.push (.enemySpawned id (World.entryPoint m.entry)) }) :
      Outcome m true
  /-- It brings a powerup, with a pending extend if the player has a shield. -/
  | powerup {extend : Bool} {slot : Slot Powerup} {rest : List (Slot Powerup)}
      (target : m.entry.target = .powerup)
      (carries : extend = (m.world.extendPending && m.world.player.shielded))
      (room : m.world.powerups.free = slot :: rest)
      (after : m.after =
        { m.world with
          carryOver := true
          powerups :=
            ⟨m.world.powerups.active ++
              [⟨slot.index, .entering m.entry.lane extend m.world.catalog.powerup⟩], rest⟩
          extendPending := m.world.extendPending && !extend
          events := m.world.events.push
            (.powerupSpawned (World.entryPoint m.entry) extend) }) :
      Outcome m true

/-- The entry asks for an enemy that there is, or for a powerup. -/
def Known (m : DueEntry) : Prop :=
  ∀ id, m.entry.target = .enemy id → (m.world.catalog.enemy? id).isSome = true

theorem decision_eq (m : DueEntry) (previous : Bool) :
    m.decision previous = m.entry.condition.permits m.world.countedEnemies previous := by
  rw [decision]
  cases m.entry.condition with
  | none => rfl
  | noEnemiesPresent =>
    rw [Bool.eq_iff_iff]
    simp [SpawnCondition.permits, World.countedEnemies, List.countP_eq_zero, Enemy.isCounted]
  | carryOver => rfl

/-- The entry once it was decided. -/
theorem after_eq (m : DueEntry) :
    m.after =
      if m.decision m.world.carryOver then
        match m.entry.target with
        | .enemy id => { m.world with carryOver := true }.spawnEnemy m.entry id m.timing
        | .powerup => { m.world with carryOver := true }.spawnPowerup m.entry
      else { m.world with carryOver := false } := by
  rw [after, World.dispatchSpawn, decision_eq]
  cases m.entry.condition.permits m.world.countedEnemies m.world.carryOver <;> rfl

/-- **One entry** is decided by its condition. What becomes of it is then a matter of the room. -/
theorem outcome {m : DueEntry} (h : m.Known) : m.Outcome (m.decision m.world.carryOver) := by
  have hafter := m.after_eq
  cases hdecision : m.decision m.world.carryOver with
  | false =>
    rw [hdecision, if_neg Bool.false_ne_true] at hafter
    exact .held hafter
  | true =>
    rw [hdecision, if_pos rfl] at hafter
    cases htarget : m.entry.target with
    | enemy id =>
      obtain ⟨archetype, hknown⟩ := Option.isSome_iff_exists.mp (h id htarget)
      rw [htarget] at hafter
      cases hroom : m.world.enemies.free with
      | nil =>
        refine .dropped (by simp [full, htarget, hroom]) ?_
        rw [hafter]
        simp only [World.spawnEnemy, hknown, Pool.spawn?, hroom]
        rfl
      | cons slot rest =>
        refine .enemy htarget hknown hroom ?_
        rw [hafter]
        simp only [World.spawnEnemy, hknown, Pool.spawn?, hroom]
        rfl
    | powerup =>
      rw [htarget] at hafter
      cases hroom : m.world.powerups.free with
      | nil =>
        refine .dropped (by simp [full, htarget, hroom]) ?_
        rw [hafter]
        simp only [World.spawnPowerup, Pool.spawn?, hroom]
        rfl
      | cons slot rest =>
        refine .powerup htarget rfl hroom ?_
        rw [hafter]
        simp only [World.spawnPowerup, Pool.spawn?, hroom]
        rfl

/-- The decision is remembered. -/
theorem Outcome.carryOver_after {m : DueEntry} {decision : Bool} (h : m.Outcome decision) :
    m.after.carryOver = decision := by
  cases h with
  | held after => rw [after]
  | dropped _ after => rw [after]
  | enemy _ _ _ after => rw [after]
  | powerup _ _ _ after => rw [after]

end DueEntry

/-- The decisions of a log, from the one that is remembered before it to the one that is remembered
after it: each entry finds the decision of the entry before it, is decided by its own condition, and
has the outcome of that. -/
inductive Decided : Bool → List DueEntry → Bool → Prop where
  | nil (remembered : Bool) : Decided remembered [] remembered
  | cons {previous last : Bool} {m : DueEntry} {rest : List DueEntry}
      (finds : m.world.carryOver = previous) (outcome : m.Outcome (m.decision previous))
      (later : Decided (m.decision previous) rest last) : Decided previous (m :: rest) last

theorem Decided.append {previous middle last : Bool} {ms ms' : List DueEntry}
    (h : Decided previous ms middle) (h' : Decided middle ms' last) :
    Decided previous (ms ++ ms') last := by
  induction h with
  | nil => exact h'
  | cons finds outcome _ ih => exact .cons finds outcome (ih h')

/-- The entries that come due on a beat are written for it. -/
theorem beat_of_mem_due {τ : Type} (stage : Stage τ) (cursor : Nat) (total : Int)
    {entry : SpawnEvent}
    (h : entry ∈ (stage.spawns.take (cursor + Timeline.dueCount stage cursor total)).drop cursor) :
    entry.beat = total := by
  have hdue : (stage.spawns.take (cursor + Timeline.dueCount stage cursor total)).drop cursor =
      (stage.spawns.drop cursor).takeWhile (·.beat == total) := by
    rw [List.drop_take, Nat.add_sub_cancel_left, Timeline.dueCount]
    exact (List.prefix_iff_eq_take.mp (List.takeWhile_prefix _)).symm
  rw [hdue] at h
  exact eq_of_beq (List.all_eq_true.mp List.all_takeWhile entry h)

namespace World

/-! ### One beat -/

/-- The entries of one beat, each with the world that the ones before it have left. -/
def dueEntries (timing : LegTiming) : World → List SpawnEvent → List DueEntry
  | _, [] => []
  | w, entry :: entries =>
    ⟨w, entry, timing⟩ :: dueEntries timing (DueEntry.after ⟨w, entry, timing⟩) entries

theorem map_entry_dueEntries (timing : LegTiming) (w : World) (entries : List SpawnEvent) :
    (dueEntries timing w entries).map (·.entry) = entries := by
  induction entries generalizing w with
  | nil => rfl
  | cons entry entries ih => exact congrArg (entry :: ·) (ih _)

/-- Entries change neither the timeline nor the catalog for one another. -/
theorem keeps_of_mem_dueEntries {timing : LegTiming} {w : World} {entries : List SpawnEvent}
    {m : DueEntry} (h : m ∈ dueEntries timing w entries) : Keeps w m.world ∧ m.entry ∈ entries := by
  induction entries generalizing w with
  | nil => cases h
  | cons entry entries ih =>
    rcases List.mem_cons.mp h with rfl | hrest
    · exact ⟨.refl w, List.mem_cons_self⟩
    · obtain ⟨hkeeps, hmem⟩ := ih hrest
      exact ⟨(keeps_dispatchSpawn timing w entry).trans hkeeps, List.mem_cons_of_mem _ hmem⟩

/-- **The entries of one beat** are decided one after the other, and the world after the last one
remembers its decision. -/
theorem decided_dueEntries (timing : LegTiming) {w : World} {entries : List SpawnEvent}
    (h : ∀ entry ∈ entries, ∀ id, entry.target = .enemy id → (w.catalog.enemy? id).isSome = true) :
    Decided w.carryOver (dueEntries timing w entries)
      (entries.foldl (dispatchSpawn timing) w).carryOver := by
  induction entries generalizing w with
  | nil => exact .nil w.carryOver
  | cons entry entries ih =>
    have houtcome : DueEntry.Outcome ⟨w, entry, timing⟩
        (DueEntry.decision ⟨w, entry, timing⟩ w.carryOver) :=
      DueEntry.outcome fun id htarget => h entry List.mem_cons_self id htarget
    refine .cons rfl houtcome ?_
    have hrest := ih (w := w.dispatchSpawn timing entry) fun later hlater id htarget => by
      rw [(keeps_dispatchSpawn timing w entry).catalog]
      exact h later (List.mem_cons_of_mem _ hlater) id htarget
    rw [← houtcome.carryOver_after]
    exact hrest

/-! ### What a call follows up on -/

/-- An event of the timeline, with the world that follows up on it. -/
structure Heard where
  world : World
  event : TimelineEvent Float
  now : Float

/-- The entries that come due with an event. -/
def Heard.dueEntries (heard : Heard) : List DueEntry :=
  match heard.event with
  | .stageStarted .. => []
  | .beat info =>
    let w := heard.world.announceBeat info
    World.dueEntries (w.legTiming heard.now) w (w.dueSpawns info)

/-- Does a stage begin? -/
def Heard.startsStage (heard : Heard) : Bool :=
  match heard.event with
  | .stageStarted .. => true
  | .beat _ => false

variable {α : Type} [AudioPlayer α Float]

/-- What a run begins with. -/
def begun (w : World) (now : Float) (audio : α) : Option Heard :=
  (w.timeline.start now w.catalog.stages audio).1.map fun event =>
    ⟨{ w.afresh (w.timeline.start now w.catalog.stages audio).2.1 with phase := .playing }, event,
      now⟩

/-- What a tick follows up on. -/
def followed (p : PlayedTick α) : Option Heard :=
  (p.world.timeline.advance p.now p.world.catalog.stages p.audio).1.map fun event =>
    ⟨{ p.world with
        tickCount := p.world.tickCount + 1
        timeline := (p.world.timeline.advance p.now p.world.catalog.stages p.audio).2.1 },
      event, p.now⟩

theorem followTimeline_eq (p : PlayedTick α) :
    ({ p.world with tickCount := p.world.tickCount + 1 }.followTimeline p.now p.audio).1 =
      match followed p with
      | some heard => heard.world.onTimelineEvent heard.event heard.now
      | none =>
        { p.world with
          tickCount := p.world.tickCount + 1
          timeline := (p.world.timeline.advance p.now p.world.catalog.stages p.audio).2.1 } := by
  rw [followTimeline, followed]
  rcases p.world.timeline.advance p.now p.world.catalog.stages p.audio with ⟨answer, t', audio⟩
  cases answer <;> rfl

/-- The event of the timeline that a call follows up on, if any. -/
def heard (s : World × α) (c : Call) : Option Heard :=
  match c with
  | .tick input now dt =>
    if input.restart then begun (s.1.age dt) now s.2
    else (played s (.tick input now dt)).bind followed
  | .startGame now => begun s.1 now s.2
  | _ => none

/-- The table entries that come due in a call. -/
def comesDue (s : World × α) (c : Call) : List DueEntry :=
  ((heard s c).map Heard.dueEntries).getD []

/-- Does a stage begin in a call? -/
def startsStage (s : World × α) (c : Call) : Bool :=
  ((heard s c).map Heard.startsStage).getD false

/-! ### What leaves the decision alone -/

theorem carryOver_awardScore (w : World) (points : Nat) :
    (w.awardScore points).carryOver = w.carryOver := by
  obtain ⟨n, heq, -⟩ := w.exists_awardScore_eq points
  rw [heq]

theorem carryOver_foldl {β : Type} {f : World → β → World}
    (hf : ∀ w x, (f w x).carryOver = w.carryOver) (w : World) (xs : List β) :
    (xs.foldl f w).carryOver = w.carryOver :=
  List.foldlRecOn (motive := fun w' => w'.carryOver = w.carryOver) xs f rfl
    fun w' h x _ => (hf w' x).trans h

theorem carryOver_resolveEnemies (w : World) : w.resolveEnemies.carryOver = w.carryOver := by
  have hkills := carryOver_foldl (f := announceKill) fun _ _ => rfl
  have hcontacts := carryOver_foldl (β := EffectKind × Vec2)
    (f := fun w contact => w.addEffect contact.1 contact.2) fun _ _ => rfl
  rw [resolveEnemies_eq, settle, carryOver_awardScore, hkills, hcontacts]
  rfl

theorem carryOver_resolvePlayer (w : World) : w.resolvePlayer.carryOver = w.carryOver := by
  obtain ⟨shots, hspare | hhurt⟩ := w.resolvePlayer_cases
  · rw [hspare]
  · obtain ⟨player, effects, events, hhit⟩ := { w with shots := shots }.exists_hurtPlayer_eq
    rw [hhurt, hhit]

theorem carryOver_tickPlayer (w : World) (input : TickInput) (dt : Float32) :
    (w.tickPlayer input dt).carryOver = w.carryOver := by
  have hbomb : ∀ w : World, w.useBomb.2.carryOver = w.carryOver := by
    intro w
    simp only [useBomb]
    split
    · rfl
    · split <;> rfl
  simp only [tickPlayer]
  split
  · exact hbomb _
  · rfl

/-- A tick takes no decision once the timeline was followed. -/
theorem carryOver_act (w : World) (input : TickInput) (now : Float) (dt : Float32) :
    (w.act input now dt).carryOver = w.carryOver := by
  rw [act, resolveHits, carryOver_resolvePlayer, carryOver_resolveEnemies]
  exact carryOver_tickPlayer (w.tickEnemies now) input dt

/-! ### The log of a stage -/

variable {c : Catalog} {w w' : World} {log : List DueEntry}

/-- What a log says of a world. It has the entries of the current stage up to the cursor, each of
them decided on its own beat, and the world remembers the last decision. -/
structure Logged (c : Catalog) (w : World) (log : List DueEntry) : Prop where
  catalog : w.catalog = c
  table : ∀ i, w.timeline.stage = some i → ∃ stage, c.stages[i]? = some stage ∧
    log.map (·.entry) = stage.spawns.take w.timeline.cursor ∧
    ∀ m ∈ log, m.world.timeline.stage = some i
  beat : ∀ m ∈ log, m.entry.beat = m.world.timeline.totalBeats
  decided : Decided true log w.carryOver

namespace Logged

/-- Nothing was decided, and the timeline stays where it is. -/
theorem stays (h : Logged c w log) (hcatalog : w'.catalog = w.catalog)
    (hstage : w'.timeline.stage = w.timeline.stage)
    (hcursor : w'.timeline.cursor = w.timeline.cursor) (hcarry : w'.carryOver = w.carryOver) :
    Logged c w' log where
  catalog := hcatalog.trans h.catalog
  table := by
    rw [hstage, hcursor]
    exact h.table
  beat := h.beat
  decided := hcarry ▸ h.decided

/-- The timeline leaves its stage. -/
theorem leaves (h : Logged c w log) (hcatalog : w'.catalog = w.catalog)
    (hstage : w'.timeline.stage = none) (hcarry : w'.carryOver = w.carryOver) :
    Logged c w' log where
  catalog := hcatalog.trans h.catalog
  table i hi := by
    rw [hstage] at hi
    cases hi
  beat := h.beat
  decided := hcarry ▸ h.decided

/-- A stage begins with an empty log. -/
theorem begins {i loopCount : Nat} {start now : Float} {stage : Stage Float}
    (hcatalog : w.catalog = c) (hstage : c.stages[i]? = some stage)
    (hcurrent : w.timeline.stage = some i) (hcursor : w.timeline.cursor = 0) :
    Logged c (w.onTimelineEvent (.stageStarted i loopCount start) now) [] where
  catalog := hcatalog
  table j hj := by
    obtain rfl := Option.some.inj (hcurrent.symm.trans hj)
    refine ⟨stage, hstage, ?_, fun m hm => by cases hm⟩
    rw [show (w.onTimelineEvent (.stageStarted i loopCount start) now).timeline.cursor = 0 from
      hcursor]
    rfl
  beat m hm := by cases hm
  decided := .nil true

/-- **A beat** adds the entries that are written for it. -/
theorem beats (hc : c.Resolved) (h : Logged c w log) {info : BeatInfo} {now : Float} {i : Nat}
    {stage : Stage Float} (hcatalog : w'.catalog = w.catalog) (hcarry : w'.carryOver = w.carryOver)
    (hcurrent : w.timeline.stage = some i) (hstage : c.stages[i]? = some stage)
    (hcounts : Timeline.Counts stage w.timeline info w'.timeline) :
    Logged c (w'.onTimelineEvent (.beat info) now)
      (log ++ Heard.dueEntries ⟨w', .beat info, now⟩) := by
  have hannounced := w'.keeps_announceBeat info
  have hafter := w'.keeps_onTimelineEvent (.beat info) now
  have hstage' : w'.timeline.stage = some i := hcounts.stage_eq.trans hcurrent
  have hdue : (w'.announceBeat info).dueSpawns info =
      (stage.spawns.take info.endSpawn).drop info.firstSpawn := by
    rw [dueSpawns, hannounced.timeline, hannounced.catalog, hcatalog, h.catalog, hstage',
      Option.bind_some, hstage]
  have hentries := map_entry_dueEntries ((w'.announceBeat info).legTiming now)
    (w'.announceBeat info) ((w'.announceBeat info).dueSpawns info)
  have hmem : ∀ m ∈ Heard.dueEntries ⟨w', .beat info, now⟩, m.world.timeline = w'.timeline ∧
      m.entry ∈ (stage.spawns.take info.endSpawn).drop info.firstSpawn := by
    intro m hm
    obtain ⟨hkeeps, hentry⟩ := keeps_of_mem_dueEntries hm
    exact ⟨hkeeps.timeline.trans hannounced.timeline, hdue ▸ hentry⟩
  have hdecided : Decided w.carryOver (Heard.dueEntries ⟨w', .beat info, now⟩)
      (w'.onTimelineEvent (.beat info) now).carryOver := by
    have hsame : (w'.announceBeat info).carryOver = w.carryOver := by
      refine Eq.trans ?_ hcarry
      simp only [announceBeat]
      split <;> rfl
    rw [← hsame]
    refine decided_dueEntries ((w'.announceBeat info).legTiming now) ?_
    intro entry hentry id htarget
    rw [hdue] at hentry
    have hknown := hc.stages stage (List.mem_of_getElem? hstage) entry
      (List.mem_of_mem_take (List.mem_of_mem_drop hentry)) id htarget
    rw [hannounced.catalog, hcatalog, h.catalog, Catalog.enemy?, List.getElem?_eq_getElem hknown]
    rfl
  refine ⟨hafter.catalog.trans (hcatalog.trans h.catalog), fun j hj => ?_, fun m hm => ?_,
    h.decided.append hdecided⟩
  · rw [hafter.timeline] at hj ⊢
    obtain rfl := Option.some.inj (hstage'.symm.trans hj)
    obtain ⟨stage', hstage'', htable, hworlds⟩ := h.table i hcurrent
    obtain rfl := Option.some.inj (hstage.symm.trans hstage'')
    have hrange : w.timeline.cursor ≤ info.endSpawn := by
      rw [hcounts.stop]
      exact Nat.le_add_right _ _
    refine ⟨stage, hstage, ?_, fun m hm => ?_⟩
    · calc
        (log ++ Heard.dueEntries ⟨w', .beat info, now⟩).map (·.entry)
          = stage.spawns.take w.timeline.cursor ++
              (stage.spawns.take info.endSpawn).drop info.firstSpawn := by
            rw [List.map_append, htable, ← hdue, ← hentries]
            rfl
        _ = (stage.spawns.take info.endSpawn).take w.timeline.cursor ++
              (stage.spawns.take info.endSpawn).drop w.timeline.cursor := by
            rw [hcounts.first, List.take_take, Nat.min_eq_left hrange]
        _ = stage.spawns.take w'.timeline.cursor := by
            rw [List.take_append_drop, hcounts.cursor_eq]
    · rcases List.mem_append.mp hm with hold | hnew
      · exact hworlds m hold
      · rw [(hmem m hnew).1]
        exact hstage'
  · rcases List.mem_append.mp hm with hold | hnew
    · exact h.beat m hold
    · obtain ⟨htimeline, hentry⟩ := hmem m hnew
      rw [htimeline, hcounts.totalBeats_eq, hcounts.total]
      rw [hcounts.first, hcounts.stop] at hentry
      exact beat_of_mem_due stage _ _ hentry

/-- **An event of the timeline** is followed up on. -/
theorem hears (hc : c.Resolved) (h : Logged c w log) (heard : Heard)
    (hcatalog : heard.world.catalog = w.catalog)
    (hcarry : heard.startsStage = false → heard.world.carryOver = w.carryOver)
    (hmoves : Timeline.Moves c.stages w.timeline [heard.event] heard.world.timeline) :
    Logged c (heard.world.onTimelineEvent heard.event heard.now)
      (if heard.startsStage then heard.dueEntries else log ++ heard.dueEntries) := by
  obtain ⟨w', event, now⟩ := heard
  cases hmoves with
  | begins hstage hcurrent _ hcursor =>
    exact begins (hcatalog.trans h.catalog) hstage hcurrent hcursor
  | beats hcurrent hstage hcounts =>
    exact h.beats hc hcatalog (hcarry rfl) hcurrent hstage hcounts

variable {s : World × α}

/-- A call that begins a run. -/
theorem begun (hc : c.Resolved) (h : Logged c w log) (now : Float) (audio : α) :
    ∃ heard, World.begun w now audio = some heard ∧
      Logged c (w.startGame now audio).1
        (if heard.startsStage then heard.dueEntries else log ++ heard.dueEntries) := by
  obtain ⟨t', i, loopCount, start, stage, hstart, -⟩ :=
    w.timeline.exists_start_eq now audio (h.catalog ▸ hc.nonempty)
  have hmoves := w.timeline.moves_start now w.catalog.stages audio
  rw [hstart, h.catalog] at hmoves
  refine ⟨⟨{ w.afresh t' with phase := .playing }, .stageStarted i loopCount start, now⟩, ?_, ?_⟩
  · rw [World.begun, hstart]
    rfl
  · rw [startGame_eq, hstart]
    exact h.hears hc
      ⟨{ w.afresh t' with phase := .playing }, .stageStarted i loopCount start, now⟩ rfl
      (fun hbeat => by cases hbeat) hmoves

/-- What follows in a tick once the timeline was followed. -/
theorem act (h : Logged c w log) (input : TickInput) (now : Float) (dt : Float32) :
    Logged c (w.act input now dt) log := by
  have hkeeps := w.keeps_act input now dt
  exact h.stays hkeeps.catalog (by rw [hkeeps.timeline]) (by rw [hkeeps.timeline])
    (carryOver_act w input now dt)

/-- A tick that is played. -/
theorem simulate (hc : c.Resolved) {p : PlayedTick α} (h : Logged c p.world log) :
    Logged c (p.world.simulate p.input p.now p.audio p.dt).1
      (if ((followed p).map Heard.startsStage).getD false then
        ((followed p).map Heard.dueEntries).getD []
      else log ++ ((followed p).map Heard.dueEntries).getD []) := by
  obtain rfl := h.catalog
  have hmoves := p.world.timeline.moves_advance p.now p.world.catalog.stages p.audio
  rw [simulate_eq, followTimeline_eq]
  refine act ?_ p.input p.now p.dt
  cases hfollowed : followed p with
  | none =>
    rw [Option.map_eq_none_iff.mp hfollowed] at hmoves
    simp only [Option.map_none, Option.getD_none, Bool.false_eq_true, if_false, List.append_nil]
    cases hmoves with
    | stays hstage _ hcursor => exact h.stays rfl hstage hcursor rfl
    | leaves hstage => exact h.leaves rfl hstage rfl
  | some heard =>
    obtain ⟨event, hanswer, rfl⟩ := Option.map_eq_some_iff.mp hfollowed
    rw [hanswer] at hmoves
    exact h.hears hc _ rfl (fun _ => rfl) hmoves

theorem age (h : Logged c w log) (dt : Float32) : Logged c (w.age dt) log := by
  rw [World.age]
  split
  · exact h.stays rfl rfl rfl rfl
  · exact h

theorem pause (h : Logged c w log) (now : Float) (audio : α) :
    Logged c (w.pause now audio).2.1 log := by
  rcases w.pause_cases now audio with hnone | ⟨hplaying, hactive⟩
  · rw [hnone]
    exact h
  · rw [pause_eq hplaying hactive]
    exact h.stays rfl rfl rfl rfl

theorem resume (h : Logged c w log) (now : Float) (audio : α) :
    Logged c (w.resume now audio).2.1 log := by
  rcases w.resume_cases now audio with hnone | ⟨hpaused, since, hstate⟩
  · rw [hnone]
    exact h
  · rw [resume_eq hpaused hstate]
    exact h.stays rfl rfl rfl rfl

/-- A tick up to the point where it is played. -/
theorem ready (h : Logged c w log) (input : TickInput) (now : Float) (audio : α) (dt : Float32) :
    Logged c (w.ready input now audio dt).1 log := by
  rw [World.ready]
  split
  · rw [togglePause]
    split
    · exact (h.age dt).pause now audio
    · exact (h.age dt).resume now audio
    · exact h.age dt
  · exact h.age dt

/-- **One call.** -/
theorem call (hc : c.Resolved) (h : Logged c s.1 log) (a : Call) :
    Logged c (World.call s a).1
      (if startsStage s a then comesDue s a else log ++ comesDue s a) := by
  have hunheard : ∀ {w : World}, heard s a = none → Logged c w log →
      Logged c w (if startsStage s a then comesDue s a else log ++ comesDue s a) := by
    intro w hnone hw
    rw [startsStage, comesDue, hnone]
    simpa using hw
  cases a with
  | tick input now dt =>
    by_cases hrestart : input.restart = true
    · obtain ⟨x, hbegun, hlogged⟩ := (h.age dt).begun hc now s.2
      have hheard : heard s (.tick input now dt) = some x := by rw [heard, if_pos hrestart, hbegun]
      rw [World.call, tick_eq, if_pos hrestart, startsStage, comesDue, hheard]
      exact hlogged
    · have hready := h.ready input now s.2 dt
      have hheard : heard s (.tick input now dt) =
          (played s (.tick input now dt)).bind followed := by
        rw [heard, if_neg hrestart]
      cases hplayed : played s (.tick input now dt) with
      | some p =>
        obtain ⟨hcall, -⟩ := call_of_played hplayed
        obtain ⟨rfl, -⟩ := played_tick_eq_some hplayed
        rw [hcall, startsStage, comesDue, hheard, hplayed, Option.bind_some]
        exact simulate hc hready
      | none =>
        have hnone : heard s (.tick input now dt) = none := by
          rw [hheard, hplayed, Option.bind_none]
        refine hunheard hnone ?_
        rcases tick_of_not_played hplayed (Bool.eq_false_iff.mpr hrestart) with
          ⟨hcall, -⟩ | ⟨hcall, -, -⟩
        · rw [hcall]
          exact hready
        · rw [hcall]
          exact hready.leaves rfl rfl rfl
  | startGame now =>
    obtain ⟨x, hbegun, hlogged⟩ := h.begun hc now s.2
    have hheard : heard s (.startGame now) = some x := hbegun
    rw [startsStage, comesDue, hheard]
    exact hlogged
  | pause now => exact hunheard rfl (h.pause now s.2)
  | resume now => exact hunheard rfl (h.resume now s.2)
  | drainEvents => exact hunheard rfl (h.stays rfl rfl rfl rfl)

/-- **Some calls.** -/
theorem play (hc : c.Resolved) (h : Logged c s.1 log) (calls : List Call) :
    Logged c (World.play s.1 s.2 calls).1 (gather startsStage comesDue s log calls) := by
  induction calls generalizing s log with
  | nil => exact h
  | cons a calls ih => exact ih (h.call hc a)

end Logged

end World

end BulletHell
