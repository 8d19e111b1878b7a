import BulletHell.Proofs.Timeline.Devices
import BulletHell.Proofs.Timeline.Place

/-!
# The stages come round

The stages of a run follow one another in the order of their list, and after the last one the first
one comes again in the next loop. All that decides it is the stage that the timeline is in and the
loop that it counts. So the number of stages begun so far is not kept anywhere; it is carried along
here, as the place that the next stage takes in an endless row of rounds.

A device is told when to play what, but need not remember it. So the playback requests are taken
down on the way: a device gets a list beside it, and each request is written at its end before it
is passed on. To the timeline the device with the list is like the device without it.

Nothing is assumed of the readings of the clock or of the lengths of the tracks. A stage may be
rolled at any call, even at every one, or never again.

## Main definitions

* `Recorded` — a device with the playback requests that it was given
* `Timeline.Fresh` — at the beginning of a stage
* `Timeline.Session.Entry`, `Timeline.Session.log` — what is seen of a call, and of each of some

## Main results

* `Timeline.roll_of_getElem?` — rolling a stage
* `Timeline.Session.call_recorded` — with the list and without it a call does the same
* `Timeline.Session.entry_spec` — one call
* `Timeline.Session.stages_come_round`
-/

namespace BulletHell

variable {τ α : Type}

/-! ### Playback requests -/

/-- A device, and the playback requests that it was given, oldest first. -/
structure Recorded (α τ : Type) where
  device : α
  requests : List (ScheduledTrack τ)

namespace Recorded

/-- A device that was given no request yet. -/
def blank (device : α) : Recorded α τ :=
  ⟨device, []⟩

variable [AudioPlayer α τ]

instance : AudioPlayer (Recorded α τ) τ where
  playScheduled r track start :=
    ⟨AudioPlayer.playScheduled r.device track start, r.requests ++ [⟨track, start⟩]⟩
  stop r := { r with device := AudioPlayer.stop r.device }
  isPlaying r := AudioPlayer.isPlaying r.device
  trackDuration r track := AudioPlayer.trackDuration r.device track
  setPaused r paused := { r with device := AudioPlayer.setPaused r.device paused }

/-- The list is not seen by a timeline. -/
theorem alike : AudioPlayer.Alike fun (device : α) (r : Recorded α τ) => r.device = device where
  trackDuration := by
    rintro _ r rfl track
    rfl
  playScheduled := by
    rintro _ r rfl track start
    rfl
  stop := by
    rintro _ r rfl
    rfl
  setPaused := by
    rintro _ r rfl paused
    rfl

end Recorded

namespace Timeline

open ClockTime

variable {stages : List (Stage τ)}

/-! ### Rounds -/

/-- The stage to come is the `k`-th of a run, counted from zero. -/
def Awaits (stages : List (Stage τ)) (k : Nat) (t : Timeline τ) : Prop :=
  t.successor stages.length = (k % stages.length, 1 + k / stages.length)

/-- Behind the last stage of the list the loop is over. -/
theorem round_succ {n : Nat} (hn : 0 < n) (k : Nat) :
    ((k + 1) % n, 1 + (k + 1) / n) =
      if k % n + 1 < n then (k % n + 1, 1 + k / n) else (0, 1 + k / n + 1) := by
  have hsplit : k % n + n * (k / n) = k := Nat.mod_add_div k n
  split
  · next hlt =>
    have hsucc : (k + 1) / n = k / n ∧ (k + 1) % n = k % n + 1 :=
      (Nat.div_mod_unique hn).mpr ⟨by omega, hlt⟩
    rw [hsucc.1, hsucc.2]
  · next hlast =>
    have hmod := Nat.mod_lt k hn
    have hsucc : (k + 1) / n = k / n + 1 ∧ (k + 1) % n = 0 :=
      (Nat.div_mod_unique hn).mpr ⟨by rw [Nat.mul_add]; omega, hn⟩
    rw [hsucc.1, hsucc.2, Nat.add_assoc]

/-- In the `k`-th stage the next one is awaited. -/
theorem awaits_succ (hstages : stages ≠ []) {k : Nat} {t : Timeline τ}
    (hstage : t.stage = some (k % stages.length)) (hloop : t.loopCount = 1 + k / stages.length) :
    t.Awaits stages (k + 1) := by
  rw [Awaits, round_succ (List.length_pos_iff.mpr hstages), successor, hstage]
  simp only [hloop]

/-! ### Rolling a stage -/

variable [ClockTime τ] [AudioPlayer α τ]

/-- At the beginning of a stage: nothing is counted and nothing handed out yet, and beats are as
long as this stage has them. -/
structure Fresh (stage : Stage τ) (t : Timeline τ) : Prop where
  bar : t.bar = -1
  beat : t.beat = -1
  totalBeats : t.totalBeats = -1
  cursor : t.cursor = 0
  beatLength : t.beatLength = stage.beatLength

/-- Rolling a stage that exists. -/
theorem roll_of_getElem? {t : Timeline τ} {stage : Stage τ}
    (h : stages[(t.successor stages.length).1]? = some stage) (now : τ) (audio : α) :
    ∃ t', t.roll now stages audio =
        (some (.stageStarted (t.successor stages.length).1 (t.successor stages.length).2
          (now + t.leadIn)), t', AudioPlayer.playScheduled audio stage.track (now + t.leadIn)) ∧
      t'.Fresh stage ∧ t'.stage = some (t.successor stages.length).1 ∧
      t'.loopCount = (t.successor stages.length).2 := by
  refine ⟨(t.roll now stages audio).2.1, ?_⟩
  simp only [roll, h]
  exact ⟨trivial, ⟨rfl, rfl, rfl, rfl, rfl⟩, trivial, trivial⟩

/-- **Rolling a stage** where the `k`-th one is awaited. -/
theorem Awaits.roll (hstages : stages ≠ []) {k : Nat} {t : Timeline τ} (h : t.Awaits stages k)
    (now : τ) (audio : α) :
    ∃ stage t', stages[k % stages.length]? = some stage ∧
      t.roll now stages audio = (some (.stageStarted (k % stages.length) (1 + k / stages.length)
        (now + t.leadIn)), t', AudioPlayer.playScheduled audio stage.track (now + t.leadIn)) ∧
      t'.Fresh stage ∧ t'.Awaits stages (k + 1) := by
  have hbound : k % stages.length < stages.length :=
    Nat.mod_lt k (List.length_pos_iff.mpr hstages)
  have hstage : stages[(t.successor stages.length).1]? = some stages[k % stages.length] := by
    rw [h]
    exact List.getElem?_eq_getElem hbound
  obtain ⟨t', hroll, hfresh, hcurrent, hloop⟩ := roll_of_getElem? hstage now audio
  rw [h] at hroll hcurrent hloop
  exact ⟨_, t', List.getElem?_eq_getElem hbound, hroll, hfresh, awaits_succ hstages hcurrent hloop⟩

/-! ### What is seen of a session -/

/-- Does the call leave the run going? -/
def Call.GoesOn : Call τ → Prop
  | .advance _ | .pause _ | .resume _ => True
  | .start _ | .stop => False

namespace Session

/-- The session with a list for the playback requests of one call. -/
def recorded (s : Session τ α) : Session τ (Recorded α τ) :=
  ⟨s.timeline, .blank s.audio, s.events⟩

/-- What a call answers. -/
def answer (stages : List (Stage τ)) (s : Session τ α) : Call τ → Option (TimelineEvent τ)
  | .start now => (s.timeline.start now stages s.audio).1
  | .advance now => (s.timeline.advance now stages s.audio).1
  | .pause _ | .resume _ | .stop => none

/-- What is seen of a call. -/
structure Entry (τ : Type) where
  /-- Was the timeline paused when the call came? -/
  paused : Bool
  answer : Option (TimelineEvent τ)
  /-- The playback requests of the call. -/
  requests : List (ScheduledTrack τ)
  /-- The timeline after the call. -/
  after : Timeline τ

def entry (stages : List (Stage τ)) (s : Session τ α) (c : Call τ) : Entry τ where
  paused := s.timeline.isPaused
  answer := s.answer stages c
  requests := (s.recorded.call stages c).audio.requests
  after := (s.call stages c).timeline

/-- What is seen of each of some calls. -/
def log (stages : List (Stage τ)) : Session τ α → List (Call τ) → List (Entry τ)
  | _, [] => []
  | s, c :: calls => s.entry stages c :: log stages (s.call stages c) calls

/-- The stage that a call began, and its loop. -/
def Entry.begun (r : Entry τ) : Option (Nat × Nat) :=
  match r.answer with
  | some (.stageStarted stage loopCount _) => some (stage, loopCount)
  | _ => none

/-- A call that begins a stage asks for its music, once and for the start that it answers, and
counts from the beginning. No other call asks for music. -/
def Entry.Accompanied (stages : List (Stage τ)) (r : Entry τ) : Prop :=
  match r.answer with
  | some (.stageStarted i _ start) =>
    ∃ stage, stages[i]? = some stage ∧ r.requests = [⟨stage.track, start⟩] ∧ r.after.Fresh stage
  | _ => r.requests = []

/-- **Taking down requests** changes nothing but the list. -/
theorem call_recorded (stages : List (Stage τ)) (s : Session τ α) (c : Call τ) :
    ∃ requests, s.recorded.call stages c =
        ⟨(s.call stages c).timeline, ⟨(s.call stages c).audio, requests⟩,
          (s.call stages c).events⟩ ∧
      s.recorded.answer stages c = s.answer stages c := by
  have hsame : (Recorded.blank s.audio : Recorded α τ).device = s.audio := rfl
  cases c with
  | start now =>
    obtain ⟨b, heq, hdevice⟩ := start_alike Recorded.alike hsame s.timeline now stages
    exact ⟨b.requests, by simp [call, record, recorded, heq, ← hdevice],
      by simp [answer, recorded, heq]⟩
  | advance now =>
    obtain ⟨b, heq, hdevice⟩ := advance_alike Recorded.alike hsame s.timeline now stages
    exact ⟨b.requests, by simp [call, record, recorded, heq, ← hdevice],
      by simp [answer, recorded, heq]⟩
  | pause now =>
    rcases pause?_alike Recorded.alike hsame s.timeline now with ⟨hnone, hnone'⟩ |
      ⟨t', a, b, hsome, hsome', -, hdevice⟩
    · refine ⟨[], ?_, rfl⟩
      simp only [call, recorded, hnone, hnone']
      rfl
    · exact ⟨b.requests, by simp [call, recorded, hsome, hsome', ← hdevice], rfl⟩
  | resume now =>
    rcases resume?_alike Recorded.alike hsame s.timeline now with ⟨hnone, hnone'⟩ |
      ⟨lost, t', a, b, hsome, hsome', -, hdevice⟩
    · refine ⟨[], ?_, rfl⟩
      simp only [call, recorded, hnone, hnone']
      rfl
    · exact ⟨b.requests, by simp [call, recorded, hsome, hsome', ← hdevice], rfl⟩
  | stop => exact ⟨[], rfl, rfl⟩

theorem entry_eq (stages : List (Stage τ)) (s : Session τ α) (c : Call τ) :
    s.entry stages c = ⟨s.timeline.isPaused, s.recorded.answer stages c,
      (s.recorded.call stages c).audio.requests, (s.recorded.call stages c).timeline⟩ := by
  obtain ⟨requests, hcall, hanswer⟩ := call_recorded stages s c
  rw [entry, hcall, hanswer]

/-! ### The stages of a run -/

/-- What a call may come to that finds the `k`-th stage awaited. -/
structure Entry.Spec (stages : List (Stage τ)) (k : Nat) (r : Entry τ) : Prop where
  accompanied : r.Accompanied stages
  quiet : r.paused = true → r.answer = none
  next : r.begun = none ∧ r.after.Awaits stages k ∨
    r.begun = some (k % stages.length, 1 + k / stages.length) ∧ r.after.Awaits stages (k + 1)

/-- A call that asks for nothing and stays in its stage. -/
theorem Entry.spec_of_quiet {k : Nat} {t : Timeline τ} (h : t.Awaits stages k) (paused : Bool) :
    Entry.Spec stages k ⟨paused, none, [], t⟩ :=
  ⟨rfl, fun _ => rfl, .inl ⟨rfl, h⟩⟩

theorem advance_of_isPaused {t : Timeline τ} (h : t.isPaused = true) (now : τ)
    (stages : List (Stage τ)) (audio : α) : t.advance now stages audio = (none, t, audio) := by
  rw [isPaused] at h
  rw [advance]
  split at h
  · next hstate => rw [hstate]
  · cases h

/-- **One call** that leaves the run going. -/
theorem entry_spec (hstages : stages ≠ []) {s : Session τ α} {k : Nat}
    (h : s.timeline.Awaits stages k) {c : Call τ} (hc : c.GoesOn) :
    (s.entry stages c).Spec stages k := by
  rw [entry_eq]
  cases c with
  | start now => exact hc.elim
  | stop => exact hc.elim
  | advance now =>
    simp only [answer, call, record, recorded]
    cases hpaused : s.timeline.isPaused with
    | true =>
      rw [advance_of_isPaused hpaused]
      exact Entry.spec_of_quiet h true
    | false =>
      rcases s.timeline.advance_eq now stages (Recorded.blank (τ := τ) s.audio) with hnone | hroll |
        ⟨i, stage, -, -, ⟨-, hbeat⟩ | ⟨-, hbar⟩⟩
      · rw [hnone]
        exact Entry.spec_of_quiet h false
      · obtain ⟨stage, t', hstage, heq, hfresh, hnext⟩ :=
          h.roll hstages now (Recorded.blank (τ := τ) s.audio)
        rw [hroll, heq]
        exact ⟨⟨stage, hstage, rfl, hfresh⟩, fun hfalse => (by cases hfalse), .inr ⟨rfl, hnext⟩⟩
      · rw [hbeat]
        exact ⟨rfl, fun hfalse => (by cases hfalse), .inl ⟨rfl, h⟩⟩
      · rw [hbar]
        exact ⟨rfl, fun hfalse => (by cases hfalse), .inl ⟨rfl, h⟩⟩
  | pause now =>
    simp only [answer, call, recorded]
    rw [pause?]
    cases s.timeline.state <;> exact ⟨rfl, fun _ => rfl, .inl ⟨rfl, h⟩⟩
  | resume now =>
    simp only [answer, call, recorded]
    rw [resume?]
    cases s.timeline.state <;> exact ⟨rfl, fun _ => rfl, .inl ⟨rfl, h⟩⟩

/-- The call that begins a run begins the first stage, whatever was before. -/
theorem entry_start (hstages : stages ≠ []) (s : Session τ α) (now : τ) :
    (s.entry stages (.start now)).answer =
        some (.stageStarted 0 1 (now + s.timeline.leadIn)) ∧
      (s.entry stages (.start now)).Accompanied stages ∧
      (s.entry stages (.start now)).after.Awaits stages 1 := by
  have hidle : ({ idle s.timeline.leadIn with state := .active } : Timeline τ).Awaits stages 0 := by
    rw [Awaits, Nat.zero_mod, Nat.zero_div]
    rfl
  obtain ⟨stage, t', hstage, hroll, hfresh, hnext⟩ :=
    hidle.roll hstages now (Recorded.blank (τ := τ) s.audio)
  have hstart : s.timeline.start now stages (Recorded.blank (τ := τ) s.audio) =
      (some (.stageStarted 0 1 (now + s.timeline.leadIn)), t',
        AudioPlayer.playScheduled (Recorded.blank s.audio) stage.track
          (now + s.timeline.leadIn)) := by
    rw [start, if_neg (by simpa using hstages), hroll, Nat.zero_mod, Nat.zero_div]
    rfl
  rw [Nat.zero_mod] at hstage
  rw [entry_eq]
  simp only [answer, call, record, recorded, hstart]
  exact ⟨trivial, ⟨stage, hstage, rfl, hfresh⟩, hnext⟩

/-- **Some calls.** They count on from the stage that is awaited. -/
theorem log_spec (hstages : stages ≠ []) {s : Session τ α} {k : Nat}
    (h : s.timeline.Awaits stages k) {calls : List (Call τ)} (hcalls : ∀ c ∈ calls, c.GoesOn) :
    (∀ j stage loopCount,
      ((s.log stages calls).filterMap Entry.begun)[j]? = some (stage, loopCount) →
        stage = (k + j) % stages.length ∧ loopCount = 1 + (k + j) / stages.length) ∧
      ∀ r ∈ s.log stages calls, r.Accompanied stages ∧ (r.paused = true → r.answer = none) := by
  induction calls generalizing s k with
  | nil => exact ⟨fun j stage loopCount hj => (by cases hj), fun r hr => by cases hr⟩
  | cons c calls ih =>
    obtain ⟨hc, hmore⟩ := List.forall_mem_cons.mp hcalls
    obtain ⟨haccompanied, hquiet, hnext⟩ := entry_spec hstages h hc
    rw [log]
    rcases hnext with ⟨hnone, hawaits⟩ | ⟨hsome, hawaits⟩
    · obtain ⟨hnumbers, hothers⟩ := ih hawaits hmore
      rw [List.filterMap_cons_none hnone]
      exact ⟨hnumbers, List.forall_mem_cons.mpr ⟨⟨haccompanied, hquiet⟩, hothers⟩⟩
    · obtain ⟨hnumbers, hothers⟩ := ih hawaits hmore
      rw [List.filterMap_cons_some hsome]
      refine ⟨fun j stage loopCount hj => ?_,
        List.forall_mem_cons.mpr ⟨⟨haccompanied, hquiet⟩, hothers⟩⟩
      cases j with
      | zero =>
        cases hj
        exact ⟨rfl, rfl⟩
      | succ j =>
        have hlater := hnumbers j stage loopCount hj
        rwa [Nat.add_right_comm] at hlater

/-- **The stages come round.** Take any timeline and any device, begin a run, and then let it go on
with any calls. The `k`-th stage that begins, counted from zero at the begin of the run, is the one
that comes after `k` steps round the list, in the loop that these steps have come to. Its music is
asked for once, for the start that is answered, and counting begins anew; nothing else asks for
music. A call that finds the run paused answers nothing. -/
theorem stages_come_round (hstages : stages ≠ []) (s : Session τ α) (now : τ)
    {calls : List (Call τ)} (hcalls : ∀ c ∈ calls, c.GoesOn) :
    let first := s.entry stages (.start now)
    let later := (s.call stages (.start now)).log stages calls
    first.answer = some (.stageStarted 0 1 (now + s.timeline.leadIn)) ∧
      (∀ k stage loopCount,
        ((first :: later).filterMap Entry.begun)[k]? = some (stage, loopCount) →
          stage = k % stages.length ∧ loopCount = 1 + k / stages.length) ∧
      (∀ r ∈ first :: later, r.Accompanied stages) ∧
      ∀ r ∈ later, r.paused = true → r.answer = none := by
  intro first later
  obtain ⟨hanswer, haccompanied, hawaits⟩ := entry_start hstages s now
  obtain ⟨hnumbers, hothers⟩ := log_spec hstages (s := s.call stages (.start now)) hawaits hcalls
  refine ⟨hanswer, fun k stage loopCount hk => ?_,
    List.forall_mem_cons.mpr ⟨haccompanied, fun r hr => (hothers r hr).1⟩,
    fun r hr => (hothers r hr).2⟩
  have hbegun : first.begun = some (0, 1) := by
    rw [Entry.begun, hanswer]
  rw [List.filterMap_cons_some hbegun] at hk
  cases k with
  | zero =>
    cases hk
    rw [Nat.zero_mod, Nat.zero_div]
    exact ⟨rfl, rfl⟩
  | succ k =>
    have hlater := hnumbers k stage loopCount hk
    rwa [Nat.add_comm 1 k] at hlater

/-- A stage without a table. -/
def bareStage (track : String) (bpm : Rat) : Stage Rat where
  name := track
  track := track
  bpm := bpm
  background := ""
  scrollSpeed := 0
  spawns := []

/-- Two stages, of two beats a second and of one. -/
def bareStages : List (Stage Rat) :=
  [bareStage "march" 120, bareStage "waltz" 60]

/-- A pause in the second stage, and calls in it and long after it. -/
def bareCalls : List (Call Rat) :=
  [.advance 1, .advance 4, .pause 5, .advance 90, .resume 60, .advance 60, .advance 90]

/-- Tracks of two seconds: the second stage comes with the second call, and with the last one the
first stage comes again. -/
theorem stages_come_round_of_bareStages :
    let s : Session Rat (HeadlessAudio Rat) := .new 1 (.new 2)
    let entries := s.entry bareStages (.start 0) ::
      (s.call bareStages (.start 0)).log bareStages bareCalls
    bareStages ≠ [] ∧ (∀ c ∈ bareCalls, c.GoesOn) ∧
      (∀ r ∈ entries, r.Accompanied bareStages) ∧
      entries.map Entry.begun =
        [some (0, 1), none, some (1, 1), none, none, none, none, some (0, 2)] := by
  intro s entries
  have hstages : bareStages ≠ [] := List.cons_ne_nil _ _
  have hcalls : ∀ c ∈ bareCalls, c.GoesOn := by
    simp [bareCalls, Call.GoesOn]
  obtain ⟨-, -, haccompanied, -⟩ := stages_come_round hstages s 0 hcalls
  exact ⟨hstages, hcalls, haccompanied, by decide +kernel⟩

end Session

end Timeline

end BulletHell
