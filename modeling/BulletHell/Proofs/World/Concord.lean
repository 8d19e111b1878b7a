import BulletHell.Proofs.World.Balance
import BulletHell.Proofs.World.Safety

/-!
# Phase, timeline and music in concord

The phase of a game, the state of its timeline and the music are three machines that know little of
each other. The phase says what a tick does, the timeline which beat comes next, and the device
which track it plays. They are changed in different places, and still no two of them ever disagree.

The concord has one case for each way in which the three may stand together, and every operation
leads from one of these cases to another. A stage that begins brings its own track along, so the
music is always that of the current stage.

## Why the catalog matters

Without stages a restart would stop the game and leave the music of the run before playing. No such
catalog loads.

## Main definitions

* `World.Scheduled` — the device has the track of the current stage
* `World.Concord` — the three ways in which phase, timeline and music stand together
* `World.Agree` — the same, told by each of the phases
* `GamePhase.toggled`, `World.Call.ends` — what the pause button makes of a phase, and the calls
  that end a run

## Main results

* `World.kept_concord` — every operation keeps the concord
* `World.Concord.ends_call`, `World.endings` — a run ends once, and is told to
* `World.phase_timeline_and_music_agree`
-/

namespace BulletHell

/-! ### The music of a stage -/

namespace Timeline

open ClockTime

variable {τ α : Type} [ClockTime τ] [AudioPlayer α τ]

/-- Advancing stays in the stage and leaves the music alone, or begins a stage with its track. -/
theorem advance_music (t : Timeline τ) (now : τ) (stages : List (Stage τ)) (audio : α) :
    (t.advance now stages audio).2.1.stage = t.stage ∧ (t.advance now stages audio).2.2 = audio ∨
      ∃ i stage start, stages[i]? = some stage ∧
        (t.advance now stages audio).2.1.stage = some i ∧
        (t.advance now stages audio).2.2 = AudioPlayer.playScheduled audio stage.track start := by
  rcases t.advance_eq now stages audio with h | h | ⟨i, stage, -, -, ⟨-, h⟩ | ⟨-, h⟩⟩
  · rw [h]
    exact .inl ⟨rfl, rfl⟩
  · rw [h]
    rcases t.roll_eq now stages audio with hroll | ⟨stage, t', hstage, hroll, -, hcurrent, -⟩
    · rw [hroll]
      exact .inl ⟨rfl, rfl⟩
    · rw [hroll]
      exact .inr ⟨_, stage, _, hstage, hcurrent, rfl⟩
  · rw [h]
    exact .inl ⟨rfl, rfl⟩
  · rw [h]
    exact .inl ⟨rfl, rfl⟩

end Timeline

/-- The phase once the pause button was seen to. It pauses a run that goes on, and resumes one that
is paused. -/
def GamePhase.toggled : Bool → GamePhase → GamePhase
  | true, .playing => .paused
  | true, .paused => .playing
  | _, phase => phase

/-- The button does nothing while no run is under way. -/
theorem GamePhase.toggled_of_stopped {phase : GamePhase} (h : phase = .idle ∨ phase = .gameOver)
    (pressed : Bool) : phase.toggled pressed = phase := by
  rcases h with rfl | rfl <;> cases pressed <;> rfl

theorem GamePhase.eq_gameOver_of_toggled {pressed : Bool} {phase : GamePhase}
    (h : phase.toggled pressed = .gameOver) : phase = .gameOver := by
  cases pressed <;> cases phase <;> first | rfl | cases h

namespace World

/-! ### Concord -/

/-- The device has the track of the current stage. -/
def Scheduled (w : World) (audio : HeadlessAudio Float) : Prop :=
  ∃ i stage time, w.timeline.stage = some i ∧ w.catalog.stages[i]? = some stage ∧
    audio.current = some ⟨stage.track, time⟩

/-- How phase, timeline and music stand together. -/
inductive Concord (w : World) (audio : HeadlessAudio Float) : Prop where
  | stopped (phase : w.phase = .idle ∨ w.phase = .gameOver) (state : w.timeline.state = .idle)
      (current : audio.current = none)
  | playing (phase : w.phase = .playing) (state : w.timeline.state = .active)
      (scheduled : w.Scheduled audio) (paused : audio.paused = false)
  | paused (phase : w.phase = .paused) (since : Float) (state : w.timeline.state = .paused since)
      (scheduled : w.Scheduled audio) (paused : audio.paused = true)

namespace Concord

variable {w w' : World} {audio : HeadlessAudio Float}

theorem of_playing (h : Concord w audio) (hplaying : w.phase = .playing) :
    w.timeline.state = .active ∧ w.Scheduled audio ∧ audio.paused = false := by
  cases h with
  | stopped phase =>
    rw [hplaying] at phase
    rcases phase with h | h <;> cases h
  | playing _ state scheduled paused => exact ⟨state, scheduled, paused⟩
  | paused phase =>
    rw [hplaying] at phase
    cases phase

theorem of_paused (h : Concord w audio) (hpaused : w.phase = .paused) :
    (∃ since, w.timeline.state = .paused since) ∧ w.Scheduled audio ∧ audio.paused = true := by
  cases h with
  | stopped phase =>
    rw [hpaused] at phase
    rcases phase with h | h <;> cases h
  | playing phase =>
    rw [hpaused] at phase
    cases phase
  | paused _ since state scheduled paused => exact ⟨⟨since, state⟩, scheduled, paused⟩

/-- What leaves the control of the run alone leaves the concord alone. -/
theorem of_eq (h : Concord w audio) (hcatalog : w'.catalog = w.catalog)
    (hphase : w'.phase = w.phase) (htimeline : w'.timeline = w.timeline) : Concord w' audio := by
  have hscheduled : w.Scheduled audio → w'.Scheduled audio := by
    rw [Scheduled, Scheduled, hcatalog, htimeline]
    exact id
  cases h with
  | stopped phase state current =>
    exact .stopped (hphase ▸ phase) (htimeline ▸ state) current
  | playing phase state scheduled paused =>
    exact .playing (hphase.trans phase) (htimeline ▸ state) (hscheduled scheduled) paused
  | paused phase since state scheduled paused =>
    exact .paused (hphase.trans phase) since (htimeline ▸ state) (hscheduled scheduled) paused

/-- Starting a run, from whatever was before. -/
theorem startGame (hstages : w.catalog.stages ≠ []) (now : Float) (audio : HeadlessAudio Float) :
    (w.startGame now audio).1.phase = .playing ∧
      Concord (w.startGame now audio).1 (w.startGame now audio).2 := by
  obtain ⟨t', i, loopCount, start, stage, hstart, hstate, hcurrent, hstage⟩ :=
    w.timeline.exists_start_eq now audio hstages
  rw [startGame_eq, hstart]
  have hkeeps := keeps_onTimelineEvent { w.afresh t' with phase := .playing }
    (.stageStarted i loopCount start) now
  refine ⟨hkeeps.phase, .playing hkeeps.phase ?_ ⟨i, stage, start, ?_, ?_, rfl⟩ rfl⟩
  · rw [hkeeps.timeline]
    exact hstate
  · rw [hkeeps.timeline]
    exact hcurrent
  · rw [hkeeps.catalog]
    exact hstage

/-- A device that has a track can be paused and resumed. -/
theorem setPaused_of_scheduled (h : w.Scheduled audio) (paused : Bool) :
    AudioPlayer.setPaused audio paused = { audio with paused := paused } := by
  obtain ⟨i, stage, time, -, -, hcurrent⟩ := h
  simp [AudioPlayer.setPaused, HeadlessAudio.setPaused, hcurrent]

theorem pause (h : Concord w audio) (now : Float) :
    Concord (w.pause now audio).2.1 (w.pause now audio).2.2 := by
  rcases w.pause_cases now audio with hnone | ⟨hplaying, hactive⟩
  · rw [hnone]
    exact h
  · obtain ⟨-, hscheduled, -⟩ := h.of_playing hplaying
    rw [pause_eq hplaying hactive, setPaused_of_scheduled hscheduled]
    exact .paused rfl now rfl hscheduled rfl

theorem resume (h : Concord w audio) (now : Float) :
    Concord (w.resume now audio).2.1 (w.resume now audio).2.2 := by
  rcases w.resume_cases now audio with hnone | ⟨hpaused, since, hstate⟩
  · rw [hnone]
    exact h
  · obtain ⟨-, hscheduled, -⟩ := h.of_paused hpaused
    rw [resume_eq hpaused hstate, setPaused_of_scheduled hscheduled]
    exact .playing rfl rfl hscheduled rfl

theorem simulate (h : Concord w audio) (hplaying : w.phase = .playing) (input : TickInput)
    (now : Float) (dt : Float32) :
    Concord (w.simulate input now audio dt).1 (w.simulate input now audio dt).2 := by
  obtain ⟨hactive, ⟨i, stage, time, hcurrent, hstage, hmusic⟩, hpaused⟩ := h.of_playing hplaying
  obtain ⟨hstate, -⟩ := w.timeline.advance_state now w.catalog.stages audio
  have hkeeps := w.keeps_simulate input now audio dt
  rw [simulate_audio]
  refine .playing (hkeeps.phase.trans hplaying) ?_ ?_ ?_
  · rw [hkeeps.timeline]
    exact hstate.trans hactive
  · rw [Scheduled, hkeeps.timeline, hkeeps.catalog]
    rcases w.timeline.advance_music now w.catalog.stages audio with
      ⟨hsame, haudio⟩ | ⟨i, stage, start, hstage, hnext, haudio⟩
    · rw [haudio]
      exact ⟨i, stage, time, hsame.trans hcurrent, hstage, hmusic⟩
    · rw [haudio]
      exact ⟨i, stage, start, hnext, hstage, rfl⟩
  · rcases w.timeline.advance_music now w.catalog.stages audio with
      ⟨-, haudio⟩ | ⟨i, stage, start, -, -, haudio⟩
    · rw [haudio]
      exact hpaused
    · rw [haudio]
      rfl

end Concord

/-- **Every operation** keeps the concord, in a game with stages. -/
theorem kept_concord {catalog : Catalog} (hstages : catalog.stages ≠ []) :
    Kept fun w (audio : HeadlessAudio Float) => w.catalog = catalog ∧ Concord w audio where
  tickEffects dt h := ⟨h.1, h.2.of_eq rfl rfl rfl⟩
  startGame {w audio} now h := by
    obtain ⟨rfl, -⟩ := h
    exact ⟨(kept_catalog w.catalog).startGame now rfl, (Concord.startGame hstages now audio).2⟩
  pause now h := ⟨(kept_catalog catalog).pause now h.1, h.2.pause now⟩
  resume now h := ⟨(kept_catalog catalog).resume now h.1, h.2.resume now⟩
  endGame h := ⟨h.1, .stopped (.inr rfl) rfl rfl⟩
  simulate input now dt hplaying halive h :=
    ⟨(kept_catalog catalog).simulate input now dt hplaying halive h.1,
      h.2.simulate hplaying input now dt⟩
  drainEvents h := ⟨h.1, h.2.of_eq rfl rfl rfl⟩

/-! ### The end of a run -/

/-- Does the call end a run? A tick does that finds no life left, unless it restarts, and unless the
game is not played once the pause button was seen to. -/
def Call.ends (w : World) : Call → Bool
  | .tick input _ _ =>
    !input.restart && w.player.lives = 0 && w.phase.toggled input.pause = .playing
  | _ => false

variable {s : World × HeadlessAudio Float} {c : Call}

namespace Concord

/-- The pause button always works. -/
theorem ready_phase {w : World} {audio : HeadlessAudio Float} (h : Concord w audio)
    (input : TickInput) (now : Float) (dt : Float32) :
    (w.ready input now audio dt).1.phase = w.phase.toggled input.pause := by
  have haged : (w.age dt).phase = w.phase ∧ Concord (w.age dt) audio := by
    rw [age]
    split
    · exact ⟨rfl, h.of_eq rfl rfl rfl⟩
    · exact ⟨rfl, h⟩
  obtain ⟨hsame, hconcord⟩ := haged
  rw [ready]
  cases hpause : input.pause with
  | false =>
    rw [if_neg Bool.false_ne_true, hsame]
    cases w.phase <;> rfl
  | true =>
    rw [if_pos rfl, togglePause]
    split
    · next hplaying =>
      obtain ⟨hstate, -⟩ := hconcord.of_playing hplaying
      rw [← hsame, hplaying, pause_eq hplaying hstate]
      rfl
    · next hpaused =>
      obtain ⟨⟨since, hstate⟩, -⟩ := hconcord.of_paused hpaused
      rw [← hsame, hpaused, resume_eq hpaused hstate]
      rfl
    · next hplaying hpaused =>
      rw [← hsame]
      cases hphase : (w.age dt).phase with
      | playing => exact absurd hphase hplaying
      | paused => exact absurd hphase hpaused
      | _ => rfl

/-- A call that ends no run: the game is not over after it, unless it was before. -/
theorem of_not_ends (hends : c.ends s.1 = false)
    (hphase : (call s c).1.phase = .gameOver → s.1.phase = .gameOver)
    (htold : (emitted s c).countP GameEvent.endsRun = 0) :
    (s.1.phase ≠ .gameOver ∧ (call s c).1.phase = .gameOver ↔ c.ends s.1 = true) ∧
      (emitted s c).countP GameEvent.endsRun = (c.ends s.1).toNat := by
  rw [hends, htold]
  exact ⟨⟨fun h => absurd (hphase h.2) h.1, fun h => (by cases h)⟩, rfl⟩

theorem untold_of_books {w : World} {kills : List (Vec2 × Nat)} (hqueued : w.events = s.1.events)
    (h : Books kills w (call s c).1) : (emitted s c).countP GameEvent.endsRun = 0 := by
  obtain ⟨told, hevents, -, hgoesOn, -⟩ := h
  rw [emitted_of_append (hqueued ▸ hevents)]
  exact hgoesOn

/-- A call that begins a run. -/
theorem starts_call (hstages : s.1.catalog.stages ≠ []) (hstarts : c.starts = true) :
    (call s c).1.phase = .playing ∧ c.ends s.1 = false ∧
      (emitted s c).countP GameEvent.endsRun = 0 := by
  obtain ⟨w, timeline, hqueued, hbooks, -⟩ := books_start (s := s) hstarts
  have huntold := untold_of_books hqueued hbooks
  cases c with
  | tick input now dt =>
    have hrestart : input.restart = true := hstarts
    have hcatalog : (s.1.age dt).catalog = s.1.catalog := (kept_catalog _).age s.2 rfl dt
    refine ⟨?_, ?_, huntold⟩
    · rw [call, tick_eq, hrestart, if_pos rfl]
      exact (startGame (hcatalog ▸ hstages) now s.2).1
    · simp [Call.ends, hrestart]
  | startGame now => exact ⟨(startGame hstages now s.2).1, rfl, huntold⟩
  | _ => cases hstarts

/-- A tick that does not restart. -/
theorem ends_tick (h : Concord s.1 s.2) {input : TickInput} (hrestart : input.restart = false)
    (now : Float) (dt : Float32) :
    (s.1.phase ≠ .gameOver ∧ (call s (.tick input now dt)).1.phase = .gameOver ↔
        Call.ends s.1 (.tick input now dt) = true) ∧
      (emitted s (.tick input now dt)).countP GameEvent.endsRun =
        (Call.ends s.1 (.tick input now dt)).toNat := by
  have hready := s.1.shown_ready input now s.2 dt
  have hphase := h.ready_phase input now dt
  cases hplayed : played s (.tick input now dt) with
  | some p =>
    obtain ⟨hworld, -, -, halive⟩ := played_tick_eq_some hplayed
    obtain ⟨hcall, hplaying, -⟩ := call_of_played hplayed
    have hlives : s.1.player.lives ≠ 0 := by
      rw [hworld, Player.isAlive, decide_eq_true_eq, hready.lives] at halive
      exact Nat.ne_of_gt halive
    refine of_not_ends ?_ (fun hover => ?_) (untold_of_books rfl (books_of_played hplayed))
    · simp [Call.ends, hlives]
    · rw [hcall, (p.world.keeps_simulate p.input p.now p.audio p.dt).phase, hplaying] at hover
      cases hover
  | none =>
    rcases tick_of_not_played hplayed hrestart with ⟨hcall, hidle⟩ | ⟨hcall, hplaying, hlives⟩
    · refine of_not_ends ?_ (fun hover => ?_) (untold_of_books rfl (hcall ▸ hready.books))
      · rw [hphase] at hidle
        simp [Call.ends, hidle]
      · rw [hcall, hphase] at hover
        exact GamePhase.eq_gameOver_of_toggled hover
    · rw [hphase] at hplaying
      rw [hready.lives] at hlives
      have hends : Call.ends s.1 (.tick input now dt) = true := by
        simp [Call.ends, hrestart, hlives, hplaying]
      have hopen : s.1.phase ≠ .gameOver := by
        intro hover
        rw [hover, GamePhase.toggled_of_stopped (.inr rfl)] at hplaying
        cases hplaying
      refine ⟨⟨fun _ => hends, fun _ => ⟨hopen, ?_⟩⟩, ?_⟩
      · rw [hcall]
        rfl
      · obtain ⟨told, hevents, -, hgoesOn, -⟩ := hready.books
        have htold : (call s (.tick input now dt)).1.events.toList = s.1.events.toList ++
            (told ++ [.gameOver (s.1.ready input now s.2 dt).1.score]) := by
          rw [hcall, ← List.append_assoc, ← hevents]
          exact Array.toList_push
        rw [emitted_of_append htold, List.countP_append, hgoesOn, hends]
        rfl

/-- **The end of a run.** The game is over after the calls that end a run, and after no other call
unless it was over before. The audience is told once. -/
theorem ends_call (hstages : s.1.catalog.stages ≠ []) (h : Concord s.1 s.2) (c : Call) :
    (s.1.phase ≠ .gameOver ∧ (call s c).1.phase = .gameOver ↔ c.ends s.1 = true) ∧
      (emitted s c).countP GameEvent.endsRun = (c.ends s.1).toNat := by
  by_cases hstarts : c.starts = true
  · obtain ⟨hplaying, hends, huntold⟩ := starts_call hstages hstarts
    refine of_not_ends hends (fun hover => ?_) huntold
    rw [hplaying] at hover
    cases hover
  · cases c with
    | tick input now dt => exact h.ends_tick (Bool.eq_false_iff.mpr hstarts) now dt
    | startGame now => exact absurd rfl hstarts
    | pause now =>
      refine of_not_ends rfl (fun hover => ?_) (untold_of_books rfl (s.1.shown_pause now s.2).books)
      rw [call] at hover
      rcases s.1.pause_cases now s.2 with hnone | ⟨hplaying, hactive⟩
      · rwa [hnone] at hover
      · rw [pause_eq hplaying hactive] at hover
        cases hover
    | resume now =>
      refine of_not_ends rfl (fun hover => ?_)
        (untold_of_books rfl (s.1.shown_resume now s.2).books)
      rw [call] at hover
      rcases s.1.resume_cases now s.2 with hnone | ⟨hpaused, since, hstate⟩
      · rwa [hnone] at hover
      · rw [resume_eq hpaused hstate] at hover
        cases hover
    | drainEvents =>
      refine of_not_ends rfl id ?_
      rw [show emitted s .drainEvents = [] from List.drop_nil]
      rfl

end Concord

/-- A tick that finds no run under way does nothing, unless it restarts. -/
theorem tick_of_stopped {w : World} (h : w.phase = .idle ∨ w.phase = .gameOver) {input : TickInput}
    (hrestart : input.restart = false) (now : Float) (audio : HeadlessAudio Float) (dt : Float32) :
    w.tick input now audio dt = (w, audio) := by
  have hplaying : w.phase ≠ .playing := by rcases h with h | h <;> rw [h] <;> decide
  have hpaused : w.phase ≠ .paused := by rcases h with h | h <;> rw [h] <;> decide
  have haged : w.age dt = w := if_neg hplaying
  have htoggled : w.togglePause now audio = (w, audio) := by
    rw [togglePause]
    split
    · next hphase => exact absurd hphase hplaying
    · next hphase => exact absurd hphase hpaused
    · rfl
  rw [tick_eq, haged, htoggled, hrestart, goOn, if_pos hplaying]
  simp

/-- What each of the phases says of timeline and music. -/
structure Agree (w : World) (audio : HeadlessAudio Float) : Prop where
  playing : w.phase = .playing ↔ w.timeline.state = .active
  paused : w.phase = .paused ↔ ∃ since, w.timeline.state = .paused since
  stopped : w.phase = .idle ∨ w.phase = .gameOver ↔ w.timeline.state = .idle
  /-- The track of the current stage plays. -/
  music : w.phase = .playing → w.Scheduled audio ∧ audio.isPlaying = true
  /-- The track of the current stage is held. -/
  hold : w.phase = .paused → w.Scheduled audio ∧ audio.paused = true
  silence : w.phase = .idle ∨ w.phase = .gameOver → audio.current = none

theorem Concord.agree {w : World} {audio : HeadlessAudio Float} (h : Concord w audio) :
    Agree w audio := by
  cases h with
  | stopped phase state current =>
    rcases phase with phase | phase <;> constructor <;> simp [phase, state, current]
  | playing phase state scheduled paused =>
    obtain ⟨i, stage, time, hstage, hknown, hcurrent⟩ := scheduled
    have hmusic : audio.isPlaying = true := by simp [HeadlessAudio.isPlaying, hcurrent, paused]
    have hscheduled : w.Scheduled audio := ⟨i, stage, time, hstage, hknown, hcurrent⟩
    constructor <;> simp [phase, state, hscheduled, hmusic]
  | paused phase since state scheduled paused =>
    constructor <;> simp [phase, state, scheduled, paused]

/-- Only a new run follows the end of one. -/
theorem over_call (hover : s.1.phase = .gameOver) (hstarts : c.starts = false) :
    (call s c).1.phase = .gameOver := by
  cases c with
  | tick input now dt =>
    rw [call, tick_of_stopped (.inr hover) hstarts now s.2 dt]
    exact hover
  | startGame now => cases hstarts
  | pause now =>
    rw [call, World.pause, hover, if_neg (by decide)]
    exact hover
  | resume now =>
    rw [call, World.resume, hover, if_neg (by decide)]
    exact hover
  | drainEvents => exact hover

/-- A record of a run tells of its end as often as it has ended. -/
theorem endings {catalog : Catalog} (hstages : catalog.stages ≠ [])
    (hcatalog : s.1.catalog = catalog) (h : Concord s.1 s.2) {record : List GameEvent}
    (hrecord : record.countP GameEvent.endsRun = (decide (s.1.phase = .gameOver)).toNat)
    (calls : List Call) :
    (sinceStart emitted s record calls).countP GameEvent.endsRun =
      (decide ((play s.1 s.2 calls).1.phase = .gameOver)).toNat := by
  induction calls generalizing s record with
  | nil => exact hrecord
  | cons c calls ih =>
    obtain ⟨hcatalog', hconcord'⟩ := (kept_concord hstages).call (s := s) ⟨hcatalog, h⟩ c
    refine ih hcatalog' hconcord' ?_
    by_cases hstarts : c.starts = true
    · obtain ⟨hplaying, -, huntold⟩ := Concord.starts_call (s := s) (hcatalog ▸ hstages) hstarts
      rw [if_pos hstarts, huntold, hplaying]
      rfl
    · obtain ⟨hends, htold⟩ := h.ends_call (hcatalog ▸ hstages) c
      rw [if_neg hstarts, List.countP_append, hrecord, htold]
      by_cases hover : s.1.phase = .gameOver
      · have hlast : c.ends s.1 = false :=
          Bool.eq_false_iff.mpr fun hlast => absurd hover (hends.mpr hlast).1
        rw [hlast, hover, over_call hover (Bool.eq_false_iff.mpr hstarts)]
        rfl
      · rw [decide_eq_false hover, Bool.toNat_false, Nat.zero_add]
        congr 1
        rw [Bool.eq_iff_iff, decide_eq_true_eq, ← hends]
        exact and_iff_right hover

/-- **Phase, timeline and music agree** at all times, in every game that loads and on a device that
nothing was asked of before, whatever calls come. A game that is not under way lets ticks pass
without a trace. It is over after the calls that end a run, and the audience was told so once since
the run began. -/
theorem phase_timeline_and_music_agree {config : GameConfig} {catalog : Catalog}
    (hload : Catalog.ofConfig config = .ok catalog) (durations : List (String × Float))
    (defaultDuration : Float) (calls : List Call) :
    let audio : HeadlessAudio Float := { durations, defaultDuration }
    let s := play (new catalog) audio calls
    Agree s.1 s.2 ∧
      (∀ input now dt, s.1.phase = .idle ∨ s.1.phase = .gameOver → input.restart = false →
        call s (.tick input now dt) = s) ∧
      (∀ c : Call,
        (s.1.phase ≠ .gameOver ∧ (call s c).1.phase = .gameOver ↔ c.ends s.1 = true) ∧
          (emitted s c).countP GameEvent.endsRun = (c.ends s.1).toNat) ∧
      (sinceStart emitted (new catalog, audio) [] calls).countP GameEvent.endsRun =
        (decide (s.1.phase = .gameOver)).toNat := by
  intro audio s
  have hstages : catalog.stages ≠ [] := (Catalog.resolved_ofConfig hload).nonempty
  have hnew : Concord (new catalog) audio := .stopped (.inl rfl) rfl rfl
  obtain ⟨hcatalog, hconcord⟩ := (kept_concord hstages).play ⟨rfl, hnew⟩ calls
  refine ⟨hconcord.agree, fun input now dt hstopped hrestart => ?_, fun c => ?_, ?_⟩
  · exact tick_of_stopped hstopped hrestart now s.2 dt
  · exact hconcord.ends_call (by rw [hcatalog]; exact hstages) c
  · exact endings (s := (new catalog, audio)) hstages rfl hnew rfl calls

/-- A game that was started and then paused: its track is held. -/
theorem phase_timeline_and_music_agree_of_oneDrone :
    Catalog.ofConfig oneDrone = .ok oneDroneCatalog ∧
      (play (new oneDroneCatalog) (HeadlessAudio.new 60) [.startGame 0, .pause 1]).1.phase =
        .paused ∧
      (play (new oneDroneCatalog) (HeadlessAudio.new 60) [.startGame 0, .pause 1]).2.current.map
        (·.track) = some "track" ∧
      Agree (play (new oneDroneCatalog) (HeadlessAudio.new 60) [.startGame 0, .pause 1]).1
        (play (new oneDroneCatalog) (HeadlessAudio.new 60) [.startGame 0, .pause 1]).2 := by
  obtain ⟨hagree, -⟩ :=
    phase_timeline_and_music_agree ofConfig_oneDrone [] 60 [.startGame 0, .pause 1]
  exact ⟨ofConfig_oneDrone, rfl, rfl, hagree⟩

end World

end BulletHell
