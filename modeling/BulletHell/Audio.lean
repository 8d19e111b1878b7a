/-!
# Music playback

The scheduler plays whole tracks at given clock times and asks how long they last. That is all
it knows of an audio device.

## Main definitions

* `AudioPlayer` — what the scheduler asks of a device.
* `HeadlessAudio` — a device without sound that remembers what it was asked for.
-/

namespace BulletHell

/-- An audio device with state `α` and clock readings `τ`. -/
class AudioPlayer (α : Type) (τ : outParam Type) where
  /-- Starts a track at a clock time. -/
  playScheduled : α → String → τ → α
  /-- Stops whatever is playing. -/
  stop : α → α
  isPlaying : α → Bool
  /-- The length of a track in seconds. -/
  trackDuration : α → String → τ
  /-- Pauses or resumes the music. -/
  setPaused : α → Bool → α

/-- A playback request. -/
structure ScheduledTrack (τ : Type) where
  track : String
  time : τ

/-- A device that makes no sound. -/
structure HeadlessAudio (τ : Type) where
  /-- Known track lengths; the first entry of a name counts. -/
  durations : List (String × τ) := []
  /-- The length of all other tracks. -/
  defaultDuration : τ
  current : Option (ScheduledTrack τ) := none
  paused : Bool := false
  /-- Every playback request, oldest first. -/
  history : Array (ScheduledTrack τ) := #[]

namespace HeadlessAudio

variable {τ : Type}

/-- A device on which every track has the same length. -/
def new (defaultDuration : τ) : HeadlessAudio τ where
  defaultDuration := defaultDuration

/-- Sets the length of one track. -/
def withTrack (a : HeadlessAudio τ) (track : String) (seconds : τ) : HeadlessAudio τ :=
  { a with durations := (track, seconds) :: a.durations }

def playScheduled (a : HeadlessAudio τ) (track : String) (time : τ) : HeadlessAudio τ :=
  { a with current := some ⟨track, time⟩, paused := false, history := a.history.push ⟨track, time⟩ }

def stop (a : HeadlessAudio τ) : HeadlessAudio τ :=
  { a with current := none, paused := false }

def isPlaying (a : HeadlessAudio τ) : Bool :=
  a.current.isSome && !a.paused

def trackDuration (a : HeadlessAudio τ) (track : String) : τ :=
  (a.durations.lookup track).getD a.defaultDuration

/-- Pausing has no effect while nothing is scheduled. -/
def setPaused (a : HeadlessAudio τ) (paused : Bool) : HeadlessAudio τ :=
  if a.current.isSome then { a with paused := paused } else a

instance : AudioPlayer (HeadlessAudio τ) τ where
  playScheduled := playScheduled
  stop := stop
  isPlaying := isPlaying
  trackDuration := trackDuration
  setPaused := setPaused

end HeadlessAudio

end BulletHell
