import BulletHell.Geometry.Angle
import BulletHell.Pattern.FireContext
import BulletHell.Pattern.Program

/-!
# The emitter interpreter

An emitter runs its program one tick per simulation step. A pending wait uses up the tick.
Otherwise instructions run in order until one of them yields: firing and waiting do. At the
end of the program the innermost open loop is closed implicitly; without one the program has
ended and the tick returns `false`.

## Main definitions

* `Emitter` — the interpreter state of one live emitter.
* `Emitter.cycle` — one instruction, or one implicit loop end.
* `Emitter.tick` — one tick: at most `maxCyclesPerTick` cycles.
* `Emitter.restart` — rewinds and runs in the same tick.

## Implementation notes

A loop frame learns where its loop ends only from the first loop end that closes it, so a
later loop end elsewhere is recognized as foreign and skipped. A lenient program may hold any
brackets at all; nothing here assumes that they match.
-/

namespace BulletHell

/-- The cycles run in one tick before an emitter counts as stalled. -/
def maxCyclesPerTick : Nat := 1024

/-- An emitter with its names resolved. -/
structure EmitterSpec where
  /-- Its place relative to the owner. -/
  offset : Vec2
  /-- The shot fired until the program changes it. -/
  shot : ShotId
  damage : Float32
  program : Program

/-- An open loop. -/
structure RepeatFrame where
  /-- The first instruction of the body. -/
  start : Nat
  /-- The loop end, once one was met. -/
  stop : Option Nat
  /-- Turns left, the current one included. -/
  remaining : Nat
deriving DecidableEq, Repr

/-- The interpreter state of one emitter. -/
structure Emitter where
  program : Program
  offset : Vec2
  /-- The next instruction. -/
  counter : Nat
  angleOffset : Int
  mode : FireMode
  mirrored : Bool
  lastAngle : Int
  waitFrames : Nat
  waitBeats : Nat
  /-- Open loops, innermost first. -/
  repeats : List RepeatFrame
  maxDepth : Nat
  shot : ShotId
  damage : Float32

/-- How a cycle leaves the tick it ran in. -/
inductive Flow where
  /-- The tick goes on. -/
  | running
  /-- The tick is over, the program is not. -/
  | yielded
  /-- The program has ended. -/
  | ended
deriving DecidableEq, Repr

namespace Emitter

/-- An emitter without a program. `maxDepth` bounds the open loops. -/
def idle (maxDepth : Nat) : Emitter where
  program := Program.empty
  offset := Vec2.zero
  counter := 0
  angleOffset := 0
  mode := .static
  mirrored := false
  lastAngle := 0
  waitFrames := 0
  waitBeats := 0
  repeats := []
  maxDepth := maxDepth
  shot := ⟨0⟩
  damage := 1

/-- Rewinds to the first instruction. Mode, mirroring, shot and damage stay as the program
left them. -/
def rewind (e : Emitter) : Emitter :=
  { e with counter := 0, angleOffset := 0, lastAngle := 0, waitFrames := 0, waitBeats := 0,
           repeats := [] }

/-- Takes up a new program. -/
def load (e : Emitter) (spec : EmitterSpec) (mirrored : Bool) : Emitter :=
  { e with program := spec.program, offset := spec.offset, shot := spec.shot,
           damage := spec.damage, mode := .static, mirrored := mirrored }.rewind

/-- A freshly loaded emitter. -/
def ofSpec (maxDepth : Nat) (mirrored : Bool) (spec : EmitterSpec) : Emitter :=
  (idle maxDepth).load spec mirrored

/-- Hears a beat: pending beat waits count down. -/
def onBeat (e : Emitter) : Emitter :=
  { e with waitBeats := e.waitBeats - 1 }

/-- The point that shots leave from. -/
def origin (e : Emitter) (owner : Vec2) : Vec2 :=
  owner + e.offset

/-- Steps to the next instruction. -/
def advance (e : Emitter) : Emitter :=
  { e with counter := e.counter + 1 }

/-! ### Instructions -/

/-- Turns the offset, the other way round when mirrored. -/
def turn (e : Emitter) (degrees : Int) : Emitter :=
  let delta := if e.mirrored then saturate (-degrees) else degrees
  { e with angleOffset := wrapAngle (saturate (e.angleOffset + delta)) }

/-- Changes the mode. Going back to static keeps the last direction fired; any other change
starts from zero. -/
def setMode (e : Emitter) (mode : FireMode) : Emitter :=
  if mode = e.mode then e
  else { e with mode := mode, angleOffset := if mode = .static then e.lastAngle else 0 }

section Fire

variable {σ : Type} [FireContext σ]

/-- The angle of the next shot. -/
def aim (e : Emitter) (origin : Vec2) (ctx : σ) : Int × σ :=
  match e.mode with
  | .static => (e.angleOffset, ctx)
  | .aimed => (wrapAngle (e.angleOffset + FireContext.angleToTarget ctx origin), ctx)
  | .random =>
    let (spread, ctx) := FireContext.randomSpread ctx e.angleOffset
    (wrapAngle (spread + FireContext.angleToTarget ctx origin), ctx)

/-- Fires. Whether there was room for the shot makes no difference to the emitter. -/
def fire (e : Emitter) (origin : Vec2) (ctx : σ) : Emitter × σ :=
  let (angle, ctx) := e.aim origin ctx
  let (_, ctx) := FireContext.spawnShot ctx ⟨origin, angle, e.shot, e.damage⟩
  ({ e with lastAngle := angle }, ctx)

end Fire

/-- Opens a loop and steps into it. The body starts behind all loop starts that follow
directly. A loop that would nest too deep is not opened, so its body runs once. -/
def repeatStart (e : Emitter) (times : Nat) : Emitter :=
  let following := (e.program.instructions.drop (e.counter + 1)).takeWhile (·.isRepeatStart)
  let repeats :=
    if e.repeats.length < e.maxDepth then
      ⟨e.counter + 1 + following.length, none, times⟩ :: e.repeats
    else e.repeats
  { e with repeats := repeats, counter := e.counter + 1 }

/-- Meets a loop end: jumps back while turns are left, and otherwise closes the loop. A loop
end without an open loop, or of a loop known to end elsewhere, is skipped. -/
def repeatEnd (e : Emitter) : Emitter :=
  match e.repeats with
  | [] => e.advance
  | frame :: rest =>
    let stop := frame.stop.getD e.counter
    if stop ≠ e.counter then e.advance
    else if 1 < frame.remaining then
      { e with repeats := ⟨frame.start, some stop, frame.remaining - 1⟩ :: rest,
               counter := frame.start }
    else { e with repeats := rest, counter := e.counter + 1 }

/-- Meets the end of the program: jumps back if the innermost loop has turns left. Otherwise
that loop is closed and the program ends, whatever else is open. -/
def endOfProgram (e : Emitter) : Flow × Emitter :=
  match e.repeats with
  | [] => (.ended, e)
  | frame :: rest =>
    if 1 < frame.remaining then
      (.running, { e with repeats := { frame with remaining := frame.remaining - 1 } :: rest,
                          counter := frame.start })
    else (.ended, { e with repeats := rest })

/-! ### Cycles and ticks -/

section Run

variable {σ : Type} [FireContext σ]

/-- Runs one instruction. -/
def execute (e : Emitter) (origin : Vec2) (ctx : σ) : Instruction → Flow × Emitter × σ
  | .fire =>
    let (e, ctx) := e.fire origin ctx
    (.yielded, e.advance, ctx)
  | .waitFrames frames => (.yielded, { e with waitFrames := frames }.advance, ctx)
  | .waitBeats beats => (.yielded, { e with waitBeats := beats }.advance, ctx)
  | .offsetAngle degrees => (.running, (e.turn degrees).advance, ctx)
  | .resetAngle => (.running, { e with angleOffset := 0 }.advance, ctx)
  | .setMode mode => (.running, (e.setMode mode).advance, ctx)
  | .setShot shot => (.running, { e with shot := shot }.advance, ctx)
  | .mirror => (.running, { e with mirrored := !e.mirrored }.advance, ctx)
  | .damage amount => (.running, { e with damage := amount }.advance, ctx)
  | .repeatStart times => (.running, e.repeatStart times, ctx)
  | .repeatEnd => (.running, e.repeatEnd, ctx)

/-- Runs the instruction at the counter, or closes a loop at the end of the program. -/
def cycle (e : Emitter) (origin : Vec2) (ctx : σ) : Flow × Emitter × σ :=
  match e.program.fetch? e.counter with
  | some op => e.execute origin ctx op
  | none =>
    let (flow, e) := e.endOfProgram
    (flow, e, ctx)

/-- Runs cycles until the tick is over, but no more than `budget`. An emitter that uses up its
budget goes on in the next tick. -/
def run (origin : Vec2) : Nat → Emitter → σ → Bool × Emitter × σ
  | 0, e, ctx => (true, e, ctx)
  | budget + 1, e, ctx =>
    match e.cycle origin ctx with
    | (.running, e, ctx) => run origin budget e ctx
    | (.yielded, e, ctx) => (true, e, ctx)
    | (.ended, e, ctx) => (false, e, ctx)

/-- One tick; `false` once the program has ended. A beat wait stops frame waits from counting,
but the two are never pending together. -/
def tick (e : Emitter) (owner : Vec2) (ctx : σ) : Bool × Emitter × σ :=
  if 0 < e.waitBeats then (true, e, ctx)
  else
    let e := { e with waitFrames := e.waitFrames - 1 }
    if 0 < e.waitFrames then (true, e, ctx)
    else run (e.origin owner) maxCyclesPerTick e ctx

/-- Rewinds and ticks. -/
def restart (e : Emitter) (owner : Vec2) (ctx : σ) : Bool × Emitter × σ :=
  e.rewind.tick owner ctx

end Run

end Emitter

end BulletHell
