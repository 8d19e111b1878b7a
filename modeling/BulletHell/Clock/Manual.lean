/-!
# A clock moved by hand

The clock of headless runs. It only ever goes forward.
-/

namespace BulletHell

structure ManualClock where
  /-- The current reading in seconds. -/
  now : Float := 0

namespace ManualClock

/-- Moves the clock forward; a step that is not positive is ignored. -/
def advance (c : ManualClock) (seconds : Float) : ManualClock :=
  if 0 < seconds then ⟨c.now + seconds⟩ else c

/-- Jumps to a later reading; an earlier one is ignored. -/
def jump (c : ManualClock) (time : Float) : ManualClock :=
  if c.now < time then ⟨time⟩ else c

end ManualClock

end BulletHell
