import BulletHell.Proofs.Timeline.Session
import BulletHell.Proofs.World.Course

/-!
# Sessions of a game

A session is a world with the audio it plays to, driven from outside by ticks and by the
operations that start, pause and resume a run. Its calls may come in any order, with any input,
at any readings of the clock and with steps of any length.

A call may lead to several operations, one after the other, and a tick in particular to almost any
of them. What is to hold at all times is therefore shown for each operation by itself, and
`World.Kept` makes a session of them.

The phase of the game, the state of its timeline and the audio are changed in different places.
`World.InStep` says how they belong together while a run goes on.

## Main definitions

* `World.Call`, `World.call`, `World.play` — the calls of a session
* `World.Kept` — a property that the operations behind the calls keep
* `World.InStep` — phase, timeline and audio agree

## Main results

* `World.Kept.call`, `World.Kept.play` — what the operations keep, every session keeps
* `World.kept_catalog` — the catalog never changes
* `World.kept_inStep`, `World.inStep_play` — phase, timeline and audio agree at all times
-/

namespace BulletHell

namespace World

/-- A call from outside. -/
inductive Call where
  | tick (input : TickInput) (now : Float) (dt : Float32)
  | startGame (now : Float)
  | pause (now : Float)
  | resume (now : Float)
  | drainEvents

section Play

variable {α : Type} [AudioPlayer α Float]

/-- One call. -/
def call (s : World × α) : Call → World × α
  | .tick input now dt => s.1.tick input now s.2 dt
  | .startGame now => s.1.startGame now s.2
  | .pause now => (s.1.pause now s.2).2
  | .resume now => (s.1.resume now s.2).2
  | .drainEvents => (s.1.drainEvents.2, s.2)

/-- The calls of a session, one after the other. -/
def play (w : World) (audio : α) (calls : List Call) : World × α :=
  calls.foldl call (w, audio)

/-! ### What sessions keep -/

/-- A property of a game and its audio that every operation keeps. The operation that plays a tick
may rely on a run that goes on and a player who is alive. -/
structure Kept (P : World → α → Prop) : Prop where
  tickEffects : ∀ {w audio} (dt : Float32), P w audio → P (w.tickEffects dt) audio
  startGame : ∀ {w audio} (now : Float), P w audio →
    P (w.startGame now audio).1 (w.startGame now audio).2
  pause : ∀ {w audio} (now : Float), P w audio →
    P (w.pause now audio).2.1 (w.pause now audio).2.2
  resume : ∀ {w audio} (now : Float), P w audio →
    P (w.resume now audio).2.1 (w.resume now audio).2.2
  endGame : ∀ {w audio}, P w audio → P (w.endGame audio).1 (w.endGame audio).2
  simulate : ∀ {w audio} (input : TickInput) (now : Float) (dt : Float32), w.phase = .playing →
    w.player.isAlive = true → P w audio →
    P (w.simulate input now audio dt).1 (w.simulate input now audio dt).2
  drainEvents : ∀ {w audio}, P w audio → P w.drainEvents.2 audio

namespace Kept

variable {P : World → α → Prop} {w : World} {audio : α}

theorem togglePause (hP : Kept P) (h : P w audio) (now : Float) :
    P (w.togglePause now audio).1 (w.togglePause now audio).2 := by
  rw [World.togglePause]
  split
  · exact hP.pause now h
  · exact hP.resume now h
  · exact h

theorem goOn (hP : Kept P) (h : P w audio) (input : TickInput) (now : Float) (dt : Float32) :
    P (w.goOn input now audio dt).1 (w.goOn input now audio dt).2 := by
  rw [World.goOn]
  split
  · exact h
  · next hplaying =>
    split
    · exact hP.endGame h
    · next halive =>
      exact hP.simulate input now dt (Decidable.not_not.mp hplaying) (by simpa using halive) h

theorem age (hP : Kept P) (audio : α) (h : P w audio) (dt : Float32) : P (w.age dt) audio := by
  rw [World.age]
  split
  · exact hP.tickEffects dt h
  · exact h

/-- **One tick**, whatever its input. -/
theorem tick (hP : Kept P) (h : P w audio) (input : TickInput) (now : Float) (dt : Float32) :
    P (w.tick input now audio dt).1 (w.tick input now audio dt).2 := by
  have haged : P (w.age dt) audio := hP.age audio h dt
  rw [tick_eq]
  split
  · exact hP.startGame now haged
  · split
    · exact hP.goOn (hP.togglePause haged now) input now dt
    · exact hP.goOn haged input now dt

/-- **One call.** -/
theorem call (hP : Kept P) {s : World × α} (h : P s.1 s.2) (c : Call) :
    P (World.call s c).1 (World.call s c).2 := by
  cases c with
  | tick input now dt => exact hP.tick h input now dt
  | startGame now => exact hP.startGame now h
  | pause now => exact hP.pause now h
  | resume now => exact hP.resume now h
  | drainEvents => exact hP.drainEvents h

/-- **A whole session.** -/
theorem play (hP : Kept P) (h : P w audio) (calls : List Call) :
    P (World.play w audio calls).1 (World.play w audio calls).2 :=
  List.foldlRecOn (motive := fun s : World × α => P s.1 s.2) calls World.call h
    fun _ hs c _ => hP.call hs c

end Kept

/-- The catalog never changes. -/
theorem kept_catalog (catalog : Catalog) : Kept (α := α) fun w _ => w.catalog = catalog where
  tickEffects _ h := h
  startGame {w audio} now h := by
    rw [startGame_eq]
    split
    · exact (keeps_onTimelineEvent _ _ now).catalog.trans h
    · exact h
  pause {w audio} now h := by
    rcases w.pause_cases now audio with hnone | ⟨hplaying, hactive⟩
    · rw [hnone]
      exact h
    · rw [pause_eq hplaying hactive]
      exact h
  resume {w audio} now h := by
    rcases w.resume_cases now audio with hnone | ⟨hpaused, since, hstate⟩
    · rw [hnone]
      exact h
    · rw [resume_eq hpaused hstate]
      exact h
  endGame h := h
  simulate {w audio} input now dt _ _ h := (w.keeps_simulate input now audio dt).catalog.trans h
  drainEvents h := h

theorem catalog_play (w : World) (audio : α) (calls : List Call) :
    (World.play w audio calls).1.catalog = w.catalog :=
  (kept_catalog w.catalog).play rfl calls

end Play

/-! ### Phase, timeline and audio -/

variable {w : World} {audio : HeadlessAudio Float}

/-- While a run goes on, the timeline is active and the music plays. While it is paused, so is the
timeline, and a track is scheduled still. -/
structure InStep (w : World) (audio : HeadlessAudio Float) : Prop where
  playing : w.phase = .playing → w.timeline.state = .active ∧ audio.isPlaying = true
  paused : w.phase = .paused →
    (∃ since, w.timeline.state = .paused since) ∧ audio.current.isSome = true

namespace InStep

/-- No run goes on. -/
theorem of_phase (hplaying : w.phase ≠ .playing) (hpaused : w.phase ≠ .paused) :
    InStep w audio :=
  ⟨fun h => absurd h hplaying, fun h => absurd h hpaused⟩

/-- What leaves the control of the run alone keeps them in step. -/
theorem of_keeps {w' : World} (h : InStep w audio) (hkeeps : Keeps w w') : InStep w' audio := by
  constructor
  · rw [hkeeps.phase, hkeeps.timeline]
    exact h.playing
  · rw [hkeeps.phase, hkeeps.timeline]
    exact h.paused

/-- A run goes on. -/
theorem of_active (hphase : w.phase = .playing) (hstate : w.timeline.state = .active)
    (haudio : audio.isPlaying = true) : InStep w audio := by
  refine ⟨fun _ => ⟨hstate, haudio⟩, fun hpaused => ?_⟩
  rw [hphase] at hpaused
  cases hpaused

theorem startGame (w : World) (now : Float) (audio : HeadlessAudio Float) :
    InStep (w.startGame now audio).1 (w.startGame now audio).2 := by
  simp only [World.startGame]
  split
  · next event hevent =>
    obtain ⟨hstate, track, start, haudio⟩ :=
      w.timeline.start_state now w.catalog.stages audio hevent
    refine of_active (keeps_onTimelineEvent _ event now).phase ?_ ?_
    · rw [(keeps_onTimelineEvent _ event now).timeline]
      exact hstate
    · simp only [haudio]
      rfl
  · exact of_phase (by simp) (by simp)

theorem pause (h : InStep w audio) (now : Float) :
    InStep (w.pause now audio).2.1 (w.pause now audio).2.2 := by
  rcases w.pause_cases now audio with hnone | ⟨hplaying, hactive⟩
  · rw [hnone]
    exact h
  · obtain ⟨-, haudio⟩ := h.playing hplaying
    rw [pause_eq hplaying hactive]
    refine ⟨fun hphase => (by cases hphase), fun _ => ⟨⟨now, rfl⟩, ?_⟩⟩
    simp only [HeadlessAudio.isPlaying, Bool.and_eq_true] at haudio
    simp [AudioPlayer.setPaused, HeadlessAudio.setPaused, haudio.1]

theorem resume (h : InStep w audio) (now : Float) :
    InStep (w.resume now audio).2.1 (w.resume now audio).2.2 := by
  rcases w.resume_cases now audio with hnone | ⟨hpaused, since, hstate⟩
  · rw [hnone]
    exact h
  · obtain ⟨-, hcurrent⟩ := h.paused hpaused
    rw [resume_eq hpaused hstate]
    refine of_active rfl rfl ?_
    simp [AudioPlayer.setPaused, HeadlessAudio.setPaused, HeadlessAudio.isPlaying, hcurrent]

theorem simulate (h : InStep w audio) (hplaying : w.phase = .playing) (input : TickInput)
    (now : Float) (dt : Float32) :
    InStep (w.simulate input now audio dt).1 (w.simulate input now audio dt).2 := by
  obtain ⟨hactive, hmusic⟩ := h.playing hplaying
  obtain ⟨hstate, haudio⟩ := w.timeline.advance_state now w.catalog.stages audio
  have hkeeps := w.keeps_simulate input now audio dt
  refine of_active (hkeeps.phase.trans hplaying) ?_ ?_
  · rw [hkeeps.timeline]
    exact hstate.trans hactive
  · rw [simulate_audio]
    rcases haudio with hsame | ⟨track, start, hstarted⟩
    · rw [hsame]
      exact hmusic
    · rw [hstarted]
      rfl

end InStep

theorem kept_inStep : Kept InStep where
  tickEffects dt h := h.of_keeps (keeps_tickEffects _ dt)
  startGame now _ := .startGame _ now _
  pause now h := h.pause now
  resume now h := h.resume now
  endGame _ := .of_phase (fun h => by cases h) fun h => by cases h
  simulate input now dt hplaying _ h := h.simulate hplaying input now dt
  drainEvents h := h.of_keeps ⟨rfl, rfl, rfl, rfl⟩

/-- **A whole session** from a new game, to whatever audio. -/
theorem inStep_play (catalog : Catalog) (audio : HeadlessAudio Float) (calls : List Call) :
    InStep (play (new catalog) audio calls).1 (play (new catalog) audio calls).2 :=
  kept_inStep.play (.of_phase (by simp [new]) (by simp [new])) calls

end World

end BulletHell
