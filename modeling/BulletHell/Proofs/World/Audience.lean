import BulletHell.Proofs.World.Pause
import BulletHell.Proofs.World.Record

/-!
# Play without an audience

Effects and the event queue are for the audience. How many effects there is room for, how long they
last, which of them are on show, and whether the queue was collected yesterday or never: none of
it makes a difference to play. Two games that agree on the rest go on agreeing, and tell the same
but for the effects.

## Why this needs proof

Effects are shown by almost every part of a tick, and a full pool does not only drop an effect but
also the event that tells of it. So the queues of the two games drift apart, and what has to agree
is not the queues but what is in them besides effects, counted from where each of them was.

The comparison goes call by call. `Staging.told` remembers the two queues as a call finds them, so
a queue that is handed over in between is no matter.

## Main definitions

* `World.offstage` — the world without what is for the audience
* `GameEvent.gameplay` — the events besides effects
* `World.stream`, `World.delivered` — what a session tells, and what of it is handed over when
* `Staging.told` — queues that grew by the same events besides effects

## Main results

* `World.Alike.call` — one call, in two games that agree offstage
* `World.delivered_eq` — nothing that is told gets lost
* `World.effects_never_feed_back`
-/

namespace BulletHell

/-! ### Onstage and offstage -/

/-- The settings without those of effects. -/
def Settings.offstage (s : Settings) : Settings :=
  { s with effectPool := 0, effectTime := 0 }

/-- The catalog without the settings of effects. -/
def Catalog.offstage (c : Catalog) : Catalog :=
  { c with settings := c.settings.offstage }

/-- The world without the effects, their settings and the queued events. -/
def World.offstage (w : World) : World :=
  { w with catalog := w.catalog.offstage, effects := ⟨[], []⟩, events := #[] }

namespace GameEvent

/-- Does the event tell of something besides an effect? -/
def isGameplay : GameEvent → Bool
  | effect .. => false
  | _ => true

/-- The events besides effects. -/
def gameplay (told : List GameEvent) : List GameEvent :=
  told.filter isGameplay

theorem gameplay_append (told told' : List GameEvent) :
    gameplay (told ++ told') = gameplay told ++ gameplay told' :=
  List.filter_append _ _

end GameEvent

open GameEvent

/-- The queue of a display grew from a given one by some events. -/
def Display.Grew (events : Array GameEvent) (d : Display) (told : List GameEvent) : Prop :=
  d.events.toList = events.toList ++ told

namespace Display

variable {events : Array GameEvent} {d : Display} {told : List GameEvent}

theorem Grew.announce (h : Grew events d told) (event : GameEvent) :
    Grew events (d.announce event) (told ++ [event]) := by
  rw [Grew, Display.announce, Array.toList_push, h, List.append_assoc]

/-- An effect is told of at most once, and nothing else is told. -/
theorem Grew.addEffect (h : Grew events d told) (seconds : Float32) (kind : EffectKind)
    (position : Vec2) : ∃ shown, Grew events (d.addEffect seconds kind position) (told ++ shown) ∧
      gameplay shown = [] := by
  simp only [Display.addEffect, showEffect]
  split
  · exact ⟨[], by rwa [List.append_nil], rfl⟩
  · exact ⟨[.effect kind position], h.announce (.effect kind position), rfl⟩

end Display

/-- The event queues grew from two given ones, and besides effects by the same events. How long
effects last may differ, and how many there is room for. -/
def Staging.told (settings settings' : Settings) (events events' : Array GameEvent) : Staging where
  seconds := settings.effectTime
  seconds' := settings'.effectTime
  capacity' := settings'.effectPool
  Related d d' := ∃ told told', d.Grew events told ∧ d'.Grew events' told' ∧
    gameplay told' = gameplay told
  announce := by
    rintro d d' ⟨told, told', hd, hd', hsame⟩ event
    refine ⟨_, _, hd.announce event, hd'.announce event, ?_⟩
    rw [gameplay_append, gameplay_append, hsame]
  addEffect := by
    rintro d d' ⟨told, told', hd, hd', hsame⟩ kind position
    obtain ⟨shown, hshown, hnone⟩ := hd.addEffect settings.effectTime kind position
    obtain ⟨shown', hshown', hnone'⟩ := hd'.addEffect settings'.effectTime kind position
    refine ⟨_, _, hshown, hshown', ?_⟩
    rw [gameplay_append, gameplay_append, hsame, hnone, hnone']

namespace World

/-- Worlds that agree offstage are one world on two stages. -/
theorem alike_of_offstage {w w' : World} (h : w'.offstage = w.offstage) :
    Alike (.told w.catalog.settings w'.catalog.settings w.events w'.events) w w' := by
  refine ⟨rfl, w'.display, ?_, [], [], (List.append_nil _).symm, (List.append_nil _).symm, rfl⟩
  rcases w with ⟨⟨settings⟩⟩
  rcases w' with ⟨⟨settings'⟩⟩
  rcases settings with ⟨⟩
  rcases settings' with ⟨⟩
  simp only [offstage, Catalog.offstage, Settings.offstage, World.mk.injEq, Catalog.mk.injEq,
    Settings.mk.injEq] at h
  simp [restage, Catalog.restage, Staging.told, display, h]

namespace Alike

variable {settings settings' : Settings} {events events' : Array GameEvent} {w w' : World}

theorem offstage (h : Alike (.told settings settings' events events') w w') :
    w'.offstage = w.offstage := by
  obtain ⟨-, d', rfl, -⟩ := h
  rfl

/-- What becomes of the effects makes no difference. -/
theorem withEffects (h : Alike (.told settings settings' events events') w w')
    (effects effects' : Pool Effect) :
    Alike (.told settings settings' events events') { w with effects := effects }
      { w' with effects := effects' } := by
  obtain ⟨hseconds, d', rfl, htold⟩ := h
  exact ⟨hseconds, ⟨effects', d'.events⟩, rfl, htold⟩

/-! ### Calls -/

theorem age (h : Alike (.told settings settings' events events') w w') (dt : Float32) :
    Alike (.told settings settings' events events') (w.age dt) (w'.age dt) := by
  simp only [World.age, h.phase]
  split
  · exact h.withEffects _ _
  · exact h

theorem afresh (h : Alike (.told settings settings' events events') w w')
    (timeline : Timeline Float) :
    Alike (.told settings settings' events events') (w.afresh timeline) (w'.afresh timeline) := by
  obtain ⟨hseconds, d', rfl, htold⟩ := h
  exact ⟨hseconds, ⟨d'.effects.clear, d'.events⟩, rfl, htold⟩

variable {α : Type} [AudioPlayer α Float]

theorem startGame (h : Alike (.told settings settings' events events') w w') (now : Float)
    (audio : α) :
    (w'.startGame now audio).2 = (w.startGame now audio).2 ∧
      Alike (.told settings settings' events events') (w.startGame now audio).1
        (w'.startGame now audio).1 := by
  have hafresh := h.afresh (w.timeline.start now w.catalog.stages audio).2.1
  rw [startGame_eq, startGame_eq, h.timeline, h.stages]
  split
  · refine ⟨rfl, onTimelineEvent ?_ _ now⟩
    exact hafresh.change (fun w => { w with phase := .playing }) rfl rfl fun _ => rfl
  · refine ⟨rfl, ?_⟩
    exact hafresh.change (fun w => { w with phase := .idle }) rfl rfl fun _ => rfl

theorem pause (h : Alike (.told settings settings' events events') w w') (now : Float)
    (audio : α) :
    (w'.pause now audio).2.2 = (w.pause now audio).2.2 ∧
      Alike (.told settings settings' events events') (w.pause now audio).2.1
        (w'.pause now audio).2.1 := by
  simp only [World.pause, h.phase, h.timeline]
  split
  · split
    · exact ⟨rfl, h⟩
    · next timeline audio' _ =>
      have hpaused := h.change (fun w => { w with timeline := timeline, phase := .paused })
        rfl rfl fun _ => rfl
      exact ⟨rfl, hpaused.announce .paused⟩
  · exact ⟨rfl, h⟩

theorem resume (h : Alike (.told settings settings' events events') w w') (now : Float)
    (audio : α) :
    (w'.resume now audio).2.2 = (w.resume now audio).2.2 ∧
      Alike (.told settings settings' events events') (w.resume now audio).2.1
        (w'.resume now audio).2.1 := by
  simp only [World.resume, h.phase, h.timeline]
  split
  · split
    · exact ⟨rfl, h⟩
    · next lost timeline audio' _ =>
      have hresumed := h.change
        (fun w => { w with
          timeline := timeline
          enemies := w.enemies.update fun enemy => enemy.onUnpause lost
          phase := .playing })
        rfl rfl fun _ => rfl
      exact ⟨rfl, hresumed.announce (.resumed lost)⟩
  · exact ⟨rfl, h⟩

theorem togglePause (h : Alike (.told settings settings' events events') w w') (now : Float)
    (audio : α) :
    (w'.togglePause now audio).2 = (w.togglePause now audio).2 ∧
      Alike (.told settings settings' events events') (w.togglePause now audio).1
        (w'.togglePause now audio).1 := by
  simp only [World.togglePause, h.phase]
  split
  · exact h.pause now audio
  · exact h.resume now audio
  · exact ⟨rfl, h⟩

theorem tick (h : Alike (.told settings settings' events events') w w') (input : TickInput)
    (now : Float) (audio : α) (dt : Float32) :
    (w'.tick input now audio dt).2 = (w.tick input now audio dt).2 ∧
      Alike (.told settings settings' events events') (w.tick input now audio dt).1
        (w'.tick input now audio dt).1 := by
  have haged := h.age dt
  rw [tick_eq, tick_eq]
  split
  · exact haged.startGame now audio
  · split
    · obtain ⟨haudio, htoggled⟩ := haged.togglePause now audio
      rw [haudio]
      exact htoggled.goOn input now _ dt
    · exact haged.goOn input now audio dt

end Alike

/-! ### Sessions -/

/-- Does the call hand over the queued events? -/
def Call.isDrain : Call → Bool
  | .drainEvents => true
  | _ => false

variable {α : Type} [AudioPlayer α Float]

/-- All that a session tells, whether it is handed over or not. -/
def stream : World × α → List Call → List GameEvent
  | _, [] => []
  | s, c :: calls => emitted s c ++ stream (call s c) calls

/-- What a session hands over to the audience, the queue at the end included. -/
def delivered : World × α → List Call → List GameEvent
  | s, [] => s.1.events.toList
  | s, c :: calls => (if c.isDrain then s.1.events.toList else []) ++ delivered (call s c) calls

theorem emitted_drainEvents (s : World × α) : emitted s .drainEvents = [] :=
  List.drop_nil

theorem Call.eq_drainEvents {c : Call} (h : c.isDrain = true) : c = .drainEvents := by
  cases c with
  | drainEvents => rfl
  | _ => cases h

/-- **One call** that does not collect the events, in two games that agree offstage. -/
theorem Alike.call {w w' : World} {settings settings' : Settings} {events events' : Array GameEvent}
    (h : Alike (.told settings settings' events events') w w') (audio : α) {c : Call}
    (hc : c.isDrain = false) :
    (World.call (w', audio) c).2 = (World.call (w, audio) c).2 ∧
      Alike (.told settings settings' events events') (World.call (w, audio) c).1
        (World.call (w', audio) c).1 := by
  cases c with
  | tick input now dt => exact h.tick input now audio dt
  | startGame now => exact h.startGame now audio
  | pause now => exact h.pause now audio
  | resume now => exact h.resume now audio
  | drainEvents => cases hc

/-- What a call tells is added to the queue, unless the call hands the queue over. -/
theorem events_call (s : World × α) {c : Call} (hc : c.isDrain = false) :
    (call s c).1.events.toList = s.1.events.toList ++ emitted s c := by
  obtain ⟨-, -, -, -, told, -, htold, -⟩ := (alike_of_offstage (w := s.1) rfl).call s.2 hc
  have hevents : (call s c).1.events.toList = s.1.events.toList ++ told := htold
  rw [emitted_of_append hevents, hevents]

/-- **Nothing gets lost.** What a session hands over is what was queued when it began, and behind
it all that it tells. -/
theorem delivered_eq (s : World × α) (calls : List Call) :
    delivered s calls = s.1.events.toList ++ stream s calls := by
  induction calls generalizing s with
  | nil => exact (List.append_nil _).symm
  | cons c calls ih =>
    rw [delivered, stream, ih]
    cases hc : c.isDrain with
    | true =>
      obtain rfl := Call.eq_drainEvents hc
      rw [emitted_drainEvents]
      rfl
    | false =>
      rw [events_call s hc, List.append_assoc]
      rfl

/-- A session without the moments at which events are collected. -/
def undrained (calls : List Call) : List Call :=
  calls.filter fun c => !c.isDrain

/-- Sessions that agree offstage, and play to the same audio. -/
def AgreeOffstage (s s' : World × α) : Prop :=
  s'.1.offstage = s.1.offstage ∧ s'.2 = s.2

variable {s s' : World × α}

theorem AgreeOffstage.call (h : AgreeOffstage s s') {c : Call} (hc : c.isDrain = false) :
    AgreeOffstage (World.call s c) (World.call s' c) ∧
      gameplay (emitted s' c) = gameplay (emitted s c) := by
  obtain ⟨w, audio⟩ := s
  obtain ⟨w', audio'⟩ := s'
  obtain ⟨hoffstage, rfl⟩ := h
  obtain ⟨haudio, halike⟩ := (alike_of_offstage hoffstage).call audio' hc
  have hafter := halike.offstage
  obtain ⟨-, d', hd', told, told', htold, htold', hsame⟩ := halike
  have hevents : (World.call (w', audio') c).1.events.toList = w'.events.toList ++ told' := by
    rw [hd']
    exact htold'
  refine ⟨⟨hafter, haudio⟩, ?_⟩
  rw [emitted_of_append (s := (w', audio')) hevents, emitted_of_append (s := (w, audio')) htold,
    hsame]

/-- Whether events are collected on the way or not makes no difference, and nor does anything else
that is for the audience. -/
theorem AgreeOffstage.play_undrained (h : AgreeOffstage s s') (calls : List Call) :
    AgreeOffstage ((undrained calls).foldl World.call s) (calls.foldl World.call s') ∧
      gameplay (stream s' calls) = gameplay (stream s (undrained calls)) := by
  induction calls generalizing s s' with
  | nil => exact ⟨h, rfl⟩
  | cons c calls ih =>
    cases hc : c.isDrain with
    | true =>
      obtain rfl := Call.eq_drainEvents hc
      have hdrained : AgreeOffstage s (World.call s' .drainEvents) := h
      obtain ⟨hagree, hstream⟩ := ih hdrained
      refine ⟨hagree, ?_⟩
      rw [stream, emitted_drainEvents, List.nil_append, hstream]
      rfl
    | false =>
      obtain ⟨hnext, htold⟩ := h.call hc
      obtain ⟨hagree, hstream⟩ := ih hnext
      have hkept : undrained (c :: calls) = c :: undrained calls :=
        List.filter_cons_of_pos (by simp [hc])
      rw [hkept, stream, stream, gameplay_append, gameplay_append, htold, hstream]
      exact ⟨hagree, rfl⟩

/-- **Effects never feed back.** Take two worlds that agree on everything but the effects, their
settings and what is queued for the audience. Let the same calls be made of both, to the same
audio, with the events collected at different moments. Then the worlds agree on as much again, the
audio is the same, and what the two games told meanwhile is the same but for effects. -/
theorem effects_never_feed_back {w w' : World} (hworlds : w'.offstage = w.offstage) (audio : α)
    {calls calls' : List Call} (hcalls : undrained calls' = undrained calls) :
    (play w' audio calls').1.offstage = (play w audio calls).1.offstage ∧
      (play w' audio calls').2 = (play w audio calls).2 ∧
      gameplay (stream (w', audio) calls') = gameplay (stream (w, audio) calls) := by
  have hself : AgreeOffstage (w, audio) (w, audio) := ⟨rfl, rfl⟩
  have hother : AgreeOffstage (w, audio) (w', audio) := ⟨hworlds, rfl⟩
  obtain ⟨⟨hoffstage, haudio⟩, hstream⟩ := hself.play_undrained calls
  obtain ⟨⟨hoffstage', haudio'⟩, hstream'⟩ := hother.play_undrained calls'
  rw [hcalls] at hoffstage' haudio' hstream'
  exact ⟨hoffstage'.trans hoffstage.symm, haudio'.trans haudio.symm, hstream'.trans hstream.symm⟩

/-- A catalog with one stage and nothing in it. -/
def emptyStage : Catalog where
  settings := {}
  shots := []
  enemies := []
  powerup := {}
  powerLevels := [[]]
  stages := [⟨"stage", "track", 120, "", 0, []⟩]
  refused := []

/-- The catalog with one empty stage, and no room for effects. -/
def emptyStageUnseen : Catalog :=
  { emptyStage with settings := { effectPool := 0, effectTime := 2 } }

/-- A run in which the player uses a bomb. -/
def bombRun : List Call :=
  [.startGame 0, .tick { bomb := true } 0.5 0.02]

/-- The same run, with the events collected before and after the bomb. -/
def bombRunDrained : List Call :=
  [.startGame 0, .drainEvents, .tick { bomb := true } 0.5 0.02, .drainEvents]

/-- The run is the same where the bomb is not seen. -/
theorem effects_never_feed_back_of_bombRun :
    (new emptyStageUnseen).offstage = (new emptyStage).offstage ∧
      undrained bombRunDrained = undrained bombRun ∧
      (play (new emptyStageUnseen) (HeadlessAudio.new 60) bombRunDrained).1.offstage =
        (play (new emptyStage) (HeadlessAudio.new 60) bombRun).1.offstage ∧
      gameplay (stream (new emptyStageUnseen, HeadlessAudio.new 60) bombRunDrained) =
        gameplay (stream (new emptyStage, HeadlessAudio.new 60) bombRun) := by
  have hworlds : (new emptyStageUnseen).offstage = (new emptyStage).offstage := rfl
  have hcalls : undrained bombRunDrained = undrained bombRun := rfl
  obtain ⟨hoffstage, -, hstream⟩ :=
    effects_never_feed_back hworlds (HeadlessAudio.new 60) hcalls
  exact ⟨hworlds, hcalls, hoffstage, hstream⟩

end World

end BulletHell
