import BulletHell.Pattern.Emitter

/-!
# Emitter groups

An owner runs several emitters side by side, in a fixed order and in one context. A group is
running while any of its emitters is.

## Main definitions

* `Emitter.tickAll`, `Emitter.restartAll` — the whole group, in order.
* `FireGate` — the gate between a held fire button and the bursts of a group.

## Implementation notes

The frames of a fire gate have 32 bits in the game. Here they have no bound, so that a gate and its
countdown agree with the game's only as long as they stay above `-2 ^ 31`.
-/

namespace BulletHell

namespace Emitter

variable {σ : Type} [FireContext σ]

/-- Runs `act` on each emitter in order. The answer is whether any of them is running. -/
def actAll (act : Emitter → σ → Bool × Emitter × σ) :
    List Emitter → σ → Bool × List Emitter × σ
  | [], ctx => (false, [], ctx)
  | e :: rest, ctx =>
    let (running, e, ctx) := act e ctx
    let (others, rest, ctx) := actAll act rest ctx
    (running || others, e :: rest, ctx)

/-- Ticks a group. -/
def tickAll (es : List Emitter) (owner : Vec2) (ctx : σ) : Bool × List Emitter × σ :=
  actAll (fun e ctx => e.tick owner ctx) es ctx

/-- Restarts a group within one tick. -/
def restartAll (es : List Emitter) (owner : Vec2) (ctx : σ) : Bool × List Emitter × σ :=
  actAll (fun e ctx => e.restart owner ctx) es ctx

end Emitter

/-- A group behind a fire button. -/
structure FireGate where
  emitters : List Emitter
  /-- A burst is in progress. -/
  firing : Bool
  /-- Counts down with every call; the button counts as held while this is not negative. -/
  frames : Int

namespace FireGate

variable {σ : Type} [FireContext σ]

/-- Starts a burst if the button still counts as held. -/
def startBurst (g : FireGate) (owner : Vec2) (ctx : σ) : FireGate × σ :=
  if g.frames < 0 then (g, ctx)
  else
    let (_, emitters, ctx) := Emitter.restartAll g.emitters owner ctx
    ({ g with emitters := emitters, firing := true }, ctx)

/-- One call of the gate. A burst in progress goes on to its end whatever the button does; a
new one starts only where none is left running. -/
def tick (g : FireGate) (owner : Vec2) (ctx : σ) : FireGate × σ :=
  let g := { g with frames := g.frames - 1 }
  if g.firing then
    let (running, emitters, ctx) := Emitter.tickAll g.emitters owner ctx
    let g := { g with emitters := emitters, firing := running }
    if running then (g, ctx) else g.startBurst owner ctx
  else g.startBurst owner ctx

end FireGate

end BulletHell
