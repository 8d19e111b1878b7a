import BulletHell.Pattern.Emitter
import BulletHell.Proofs.Pattern.Block

/-!
# What an emitter is seen to do

An emitter answers its ticks and changes its state, but says nothing of the instructions it ran
on the way. This file adds an observer. A tick is watched cycle by cycle, and a session is any
sequence of calls, watched one by one.

## Implementation notes

What is kept of a tick is the list of the states in which its cycles began. The instruction of a
cycle, and whether it meets one of the interpreter's guards against odd loops, can be told from
that state alone.

Every call brings its own context. So the surroundings may change in any way between two calls,
as they do when a whole world takes its turn in between.

## Main definitions

* `Emitter.cycles`, `Emitter.tickCycles` — the states in which the cycles of a run, or of a tick,
  began
* `Emitter.AtGuard` — a loop bracket that the interpreter does not take at its word
* `Emitter.Call`, `Emitter.log` — a session and what was seen of it
-/

namespace BulletHell

namespace Emitter

/-! ### One cycle -/

/-- The instruction that the next cycle runs; `none` at the end of the program. -/
def next? (e : Emitter) : Option Instruction :=
  e.program.fetch? e.counter

/-- What the next cycle executes besides brackets. -/
def nextPlain (e : Emitter) : List Instruction :=
  e.next?.toList.filter fun i => !i.isBracket

/-- A loop start for which no loop can be opened any more, or a loop end without an open loop,
of a loop that is known to end elsewhere, or of a loop without turns. -/
def AtGuard (e : Emitter) : Prop :=
  match e.next? with
  | some (.repeatStart _) => e.maxDepth ≤ e.repeats.length
  | some .repeatEnd =>
    match e.repeats with
    | [] => True
    | frame :: _ => (∃ stop, frame.stop = some stop ∧ stop ≠ e.counter) ∨ frame.remaining = 0
  | _ => False

/-! ### Ticks -/

section Cycles

variable {σ : Type} [FireContext σ]

/-- The states in which the cycles of a run begin. -/
def cycles (origin : Vec2) : Nat → Emitter → σ → List Emitter
  | 0, _, _ => []
  | budget + 1, e, ctx =>
    match e.cycle origin ctx with
    | (.running, e', ctx') => e :: cycles origin budget e' ctx'
    | (.yielded, _, _) => [e]
    | (.ended, _, _) => [e]

/-- The states in which the cycles of a tick begin; there are none while a wait is pending. -/
def tickCycles (e : Emitter) (owner : Vec2) (ctx : σ) : List Emitter :=
  if 0 < e.waitBeats then []
  else
    let e := { e with waitFrames := e.waitFrames - 1 }
    if 0 < e.waitFrames then [] else cycles (e.origin owner) maxCyclesPerTick e ctx

end Cycles

/-! ### Sessions -/

/-- What an owner does with an emitter. -/
inductive Call (σ : Type) where
  | load (spec : EmitterSpec) (mirrored : Bool)
  | restart (owner : Vec2) (ctx : σ)
  | tick (owner : Vec2) (ctx : σ)
  | beat

/-- What was seen of one call. -/
structure Entry where
  /-- The answer of a tick or a restart. -/
  answer : Option Bool
  /-- The states in which the cycles of the call began. -/
  cycles : List Emitter

/-- The instructions that were executed during a call, brackets left out. -/
def Entry.executed (r : Entry) : List Instruction :=
  r.cycles.flatMap nextPlain

variable {σ : Type} [FireContext σ]

/-- The emitter after a call. -/
def call (e : Emitter) : Call σ → Emitter
  | .load spec mirrored => e.load spec mirrored
  | .restart owner ctx => (e.restart owner ctx).2.1
  | .tick owner ctx => (e.tick owner ctx).2.1
  | .beat => e.onBeat

/-- The emitter after some calls. -/
def after (e : Emitter) (calls : List (Call σ)) : Emitter :=
  calls.foldl call e

/-- What is seen of a call. -/
def entry (e : Emitter) : Call σ → Entry
  | .load _ _ => ⟨none, []⟩
  | .restart owner ctx => ⟨some (e.restart owner ctx).1, e.rewind.tickCycles owner ctx⟩
  | .tick owner ctx => ⟨some (e.tick owner ctx).1, e.tickCycles owner ctx⟩
  | .beat => ⟨none, []⟩

/-- What is seen of a session. -/
def log : Emitter → List (Call σ) → List Entry
  | _, [] => []
  | e, c :: calls => e.entry c :: log (e.call c) calls

/-- The instructions executed during a session, brackets left out. -/
def executed (entries : List Entry) : List Instruction :=
  entries.flatMap Entry.executed

/-- Does the call go on with the program that is loaded, from where it stands? -/
def Call.GoesOn : Call σ → Prop
  | .tick _ _ | .beat => True
  | .load _ _ | .restart _ _ => False

/-- Does the call begin a program afresh? -/
def Call.Begins (p : Program) (e : Emitter) : Call σ → Prop
  | .load spec _ => spec.program = p
  | .restart _ _ => e.program = p
  | .tick _ _ | .beat => False

end Emitter

end BulletHell
