import BulletHell.Timeline

/-!
# Devices that answer alike

The timeline asks an audio device one thing only, how long a track lasts. Two devices that give the
same answers, now and whatever they are told later, are the same to it: it goes the same way with
either, and leaves both in the same condition.

## Main definitions

* `AudioPlayer.Alike` — a relation between devices that answer alike and go on doing so

## Main results

* `Timeline.advance_alike`, `start_alike`, `pause?_alike`, `resume?_alike`
* `Timeline.leadIn_advance` and others — the time before the music never changes
-/

namespace BulletHell

variable {τ α β : Type}

/-- Devices that answer alike, whatever they are told. -/
structure AudioPlayer.Alike [AudioPlayer α τ] [AudioPlayer β τ] (R : α → β → Prop) : Prop where
  trackDuration : ∀ {a b}, R a b → ∀ track,
    AudioPlayer.trackDuration b track = AudioPlayer.trackDuration a track
  playScheduled : ∀ {a b}, R a b → ∀ track start,
    R (AudioPlayer.playScheduled a track start) (AudioPlayer.playScheduled b track start)
  stop : ∀ {a b}, R a b → R (AudioPlayer.stop a) (AudioPlayer.stop b)
  setPaused : ∀ {a b}, R a b → ∀ paused,
    R (AudioPlayer.setPaused a paused) (AudioPlayer.setPaused b paused)

/-- A device answers like itself. -/
theorem AudioPlayer.alike_eq [AudioPlayer α τ] : Alike (Eq : α → α → Prop) where
  trackDuration := by
    rintro a - rfl track
    rfl
  playScheduled := by
    rintro a - rfl track start
    rfl
  stop := by
    rintro a - rfl
    rfl
  setPaused := by
    rintro a - rfl paused
    rfl

namespace HeadlessAudio

/-- How long the tracks last that a silent device knows, and how long all others. -/
def tracks (a : HeadlessAudio τ) : List (String × τ) × τ :=
  (a.durations, a.defaultDuration)

theorem tracks_setPaused (a : HeadlessAudio τ) (paused : Bool) :
    (AudioPlayer.setPaused a paused).tracks = a.tracks := by
  simp only [AudioPlayer.setPaused, setPaused]
  split <;> rfl

/-- Silent devices that know the same tracks, whatever they were asked for so far. -/
def BothKnow (tracks : List (String × τ) × τ) (a b : HeadlessAudio τ) : Prop :=
  a.tracks = tracks ∧ b.tracks = tracks

theorem alike_bothKnow (tracks : List (String × τ) × τ) :
    AudioPlayer.Alike (BothKnow tracks) where
  trackDuration := by
    rintro a b ⟨ha, hb⟩ track
    obtain ⟨hdurations, hdefault⟩ := Prod.mk.inj (hb.trans ha.symm)
    simp only [AudioPlayer.trackDuration, trackDuration, hdurations, hdefault]
  playScheduled h _ _ := h
  stop h := h
  setPaused {a b} h paused :=
    ⟨(a.tracks_setPaused paused).trans h.1, (b.tracks_setPaused paused).trans h.2⟩

end HeadlessAudio

namespace Timeline

variable [AudioPlayer α τ] [AudioPlayer β τ] {R : α → β → Prop} {a : α} {b : β}

/-! ### The same way with either device -/

theorem pause?_alike (hR : AudioPlayer.Alike R) (h : R a b) (t : Timeline τ) (now : τ) :
    t.pause? now a = none ∧ t.pause? now b = none ∨
      ∃ t' a' b', t.pause? now a = some (t', a') ∧ t.pause? now b = some (t', b') ∧
        t'.leadIn = t.leadIn ∧ R a' b' := by
  simp only [pause?]
  split
  · exact .inr ⟨_, _, _, rfl, rfl, rfl, hR.setPaused h true⟩
  · exact .inl ⟨rfl, rfl⟩

variable [ClockTime τ]

theorem roll_alike (hR : AudioPlayer.Alike R) (h : R a b) (t : Timeline τ) (now : τ)
    (stages : List (Stage τ)) :
    ∃ b', t.roll now stages b = ((t.roll now stages a).1, (t.roll now stages a).2.1, b') ∧
      R (t.roll now stages a).2.2 b' := by
  cases hstage : stages[(t.successor stages.length).1]? with
  | none =>
    simp only [roll, hstage]
    exact ⟨b, rfl, h⟩
  | some stage =>
    have hplayed := hR.playScheduled h stage.track (now + t.leadIn)
    simp only [roll, hstage, hR.trackDuration hplayed]
    exact ⟨_, rfl, hplayed⟩

theorem advance_alike (hR : AudioPlayer.Alike R) (h : R a b) (t : Timeline τ) (now : τ)
    (stages : List (Stage τ)) :
    ∃ b', t.advance now stages b =
        ((t.advance now stages a).1, (t.advance now stages a).2.1, b') ∧
      R (t.advance now stages a).2.2 b' := by
  rw [advance, advance]
  split
  · split
    · exact roll_alike hR h t now stages
    · split
      · exact ⟨b, rfl, h⟩
      · split
        · exact ⟨b, rfl, h⟩
        · split
          · exact ⟨b, rfl, h⟩
          · exact ⟨b, rfl, h⟩
  · exact ⟨b, rfl, h⟩

theorem start_alike (hR : AudioPlayer.Alike R) (h : R a b) (t : Timeline τ) (now : τ)
    (stages : List (Stage τ)) :
    ∃ b', t.start now stages b = ((t.start now stages a).1, (t.start now stages a).2.1, b') ∧
      R (t.start now stages a).2.2 b' := by
  rw [start, start]
  split
  · exact ⟨b, rfl, h⟩
  · exact roll_alike hR h _ now stages

theorem resume?_alike (hR : AudioPlayer.Alike R) (h : R a b) (t : Timeline τ) (now : τ) :
    t.resume? now a = none ∧ t.resume? now b = none ∨
      ∃ lost t' a' b', t.resume? now a = some (lost, t', a') ∧
        t.resume? now b = some (lost, t', b') ∧ t'.leadIn = t.leadIn ∧ R a' b' := by
  simp only [resume?]
  split
  · exact .inr ⟨_, _, _, _, rfl, rfl, rfl, hR.setPaused h false⟩
  · exact .inl ⟨rfl, rfl⟩

/-! ### The time before the music -/

theorem leadIn_roll (t : Timeline τ) (now : τ) (stages : List (Stage τ)) (audio : α) :
    (t.roll now stages audio).2.1.leadIn = t.leadIn := by
  simp only [roll]
  split <;> rfl

theorem leadIn_advance (t : Timeline τ) (now : τ) (stages : List (Stage τ)) (audio : α) :
    (t.advance now stages audio).2.1.leadIn = t.leadIn := by
  rw [advance]
  split
  · split
    · exact leadIn_roll t now stages audio
    · split
      · rfl
      · split
        · rfl
        · split <;> rfl
  · rfl

theorem leadIn_start (t : Timeline τ) (now : τ) (stages : List (Stage τ)) (audio : α) :
    (t.start now stages audio).2.1.leadIn = t.leadIn := by
  rw [start]
  split
  · rfl
  · exact leadIn_roll _ now stages audio

/-- Nothing of a timeline is left when a run begins, but the time before the music. -/
theorem start_eq_of_leadIn {t t' : Timeline τ} (h : t'.leadIn = t.leadIn) (now : τ)
    (stages : List (Stage τ)) (audio : α) :
    t'.start now stages audio = t.start now stages audio := by
  rw [start, start, h]

end Timeline

end BulletHell
