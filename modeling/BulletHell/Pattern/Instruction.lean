/-!
# Instructions

The vocabulary of emitter programs, in two forms. A configuration names the shots it wants;
a running program refers to them by their place in the catalog.

## Main definitions

* `ShotId` — a shot archetype by its place in the catalog.
* `FireMode` — how a shot finds its direction.
* `Instruction` — an instruction ready to run.
* `InstructionConfig` — the same as written, with shots by name.
-/

namespace BulletHell

/-- A shot archetype, by its place in the catalog. -/
structure ShotId where
  index : Nat
deriving DecidableEq, Repr

/-- How a shot finds its direction. -/
inductive FireMode where
  /-- Along the current offset. -/
  | static
  /-- At the target, turned by the current offset. -/
  | aimed
  /-- At the target, turned by a random angle within the current offset. -/
  | random
deriving DecidableEq, Repr

/-- An instruction ready to run. -/
inductive Instruction where
  | fire
  | waitFrames (frames : Nat)
  | waitBeats (beats : Nat)
  | offsetAngle (degrees : Int)
  | resetAngle
  | setMode (mode : FireMode)
  | setShot (shot : ShotId)
  | mirror
  | damage (amount : Float32)
  | repeatStart (times : Nat)
  | repeatEnd

/-- An instruction as written. -/
inductive InstructionConfig where
  | fire
  | waitFrames (frames : Nat)
  | waitBeats (beats : Nat)
  | offsetAngle (degrees : Int)
  | resetAngle
  | setMode (mode : FireMode)
  | setShot (shot : String)
  | mirror
  | damage (amount : Float32)
  | repeatStart (times : Nat)
  | repeatEnd

namespace Instruction

/-- Does a loop open here? -/
def isRepeatStart : Instruction → Bool
  | repeatStart _ => true
  | _ => false

end Instruction

end BulletHell
