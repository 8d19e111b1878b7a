import BulletHell.Clock.Manual
import BulletHell.World.Tick

/-!
# The autopilot

Plays a game without a human: a clock is moved frame by frame, each frame gives the simulation
as many fixed steps as have come due, and between frames the autopilot sets the input of the
next one. It sways from side to side, fires all the time, and drops a bomb when the screen is
crowded.

## Main definitions

* `Session` — a game with its clock, its music and the input of the next tick.
* `Session.frame` — one frame, with the events it gave rise to.
* `Session.play` — frames until the time is up or the game is over.
-/

namespace BulletHell

/-- The length of a simulation step in seconds. -/
def stepLength : Float32 := 1.0 / 50.0

/-- The length of a frame in seconds. -/
def frameLength : Float32 := 1.0 / 60.0

/-- The most simulation steps in one frame; a backlog beyond it waits. -/
def maxStepsPerFrame : Nat := 8

/-- The length of all tracks in a session. -/
def sessionTrackLength : Float := 30

structure Session where
  world : World
  clock : ManualClock
  audio : HeadlessAudio Float
  input : TickInput
  /-- Time that no step has covered yet. -/
  backlog : Float32

namespace Session

/-- A session whose first tick starts the game. -/
def new (catalog : Catalog) : Session where
  world := .new catalog
  clock := {}
  audio := .new sessionTrackLength
  input := { restart := true }
  backlog := 0

/-- Runs one simulation step. What is pressed once is let go afterwards. -/
def step (s : Session) : Session :=
  let (world, audio) := s.world.tick s.input s.clock.now s.audio stepLength
  { s with world := world, audio := audio, backlog := s.backlog - stepLength,
           input := { s.input with restart := false, bomb := false, pause := false } }

/-- Runs the steps that have come due, but no more than the given number. -/
def steps : Nat → Session → Session
  | 0, s => s
  | n + 1, s => if stepLength ≤ s.backlog then steps n s.step else s

/-- Is the game over? -/
def isOver (s : Session) : Bool :=
  s.world.phase = .gameOver

/-- Are so many enemy shots about that a bomb is called for? -/
def isCrowded (s : Session) : Bool :=
  s.world.catalog.settings.enemyShotPool * 3 / 4 < s.world.shots.enemy.activeCount

/-- Sets the input of the next tick. -/
def steer (s : Session) : Session :=
  let t := s.clock.now.toFloat32
  { s with input := { s.input with movement := ⟨t.sin, 0⟩, fire := true, bomb := s.isCrowded } }

/-- One frame. The answer begins with its events. -/
def frame (s : Session) : Array GameEvent × Session :=
  let s :=
    { s with clock := s.clock.advance frameLength.toFloat, backlog := s.backlog + frameLength }
  let s := steps maxStepsPerFrame s
  let (events, world) := s.world.drainEvents
  let s := { s with world := world }
  (events, if s.isOver then s else s.steer)

/-- Plays frames while the clock is below a limit and the game goes on, but no more than the
given number, and hands the events of each frame to `emit`. -/
def playFrames {m : Type → Type} [Monad m] (emit : Array GameEvent → m Unit) (seconds : Float) :
    Nat → Session → m Session
  | 0, s => pure s
  | n + 1, s =>
    if s.clock.now < seconds && !s.isOver then do
      let (events, s) := s.frame
      emit events
      playFrames emit seconds n s
    else pure s

/-- Enough frames to reach a clock reading. -/
def frameBound (seconds : Float) : Nat :=
  (seconds * 61).toUInt64.toNat + 2

/-- Plays a session for a number of seconds. -/
def play {m : Type → Type} [Monad m] (emit : Array GameEvent → m Unit) (seconds : Float)
    (s : Session) : m Session :=
  playFrames emit seconds (frameBound seconds) s

end Session

/-- The number of seconds that a second argument asks for. -/
def sessionSeconds (args : List String) : Float :=
  (args[1]?.bind readDouble?).getD 60

end BulletHell
