import BulletHell.Proofs.Pattern.Contexts
import BulletHell.Proofs.Pattern.Session

/-!
# The shots that an emitter asks for

A call of an emitter returns what has become of its surroundings, but not what it asked them for.
Whether a request left a trace there is for the surroundings to decide. So the requests are taken
down on the way: the surroundings get a list beside them, and every request is written at its end
before it is passed on. To the emitter the surroundings with the list are like those without it,
as it cannot see the list.

## Main definitions

* `Noted` — surroundings with a list of the shots that were asked for
* `Emitter.requests`, `Emitter.requestLog` — the shots that a call asks for, and those of each call
  of a session

## Main results

* `Noted.alike`, `Emitter.tick_noted` — with the list and without it an emitter does the same
-/

namespace BulletHell

/-- Surroundings, and the shots that were asked for there, in this order. -/
structure Noted (σ : Type) where
  context : σ
  requests : List ShotRequest

namespace Noted

variable {σ : Type}

/-- Surroundings of which nothing was asked yet. -/
def blank (ctx : σ) : Noted σ :=
  ⟨ctx, []⟩

variable [FireContext σ]

instance : FireContext (Noted σ) where
  angleToTarget noted origin := FireContext.angleToTarget noted.context origin
  randomSpread noted spread :=
    let (angle, ctx) := FireContext.randomSpread noted.context spread
    (angle, { noted with context := ctx })
  spawnShot noted request :=
    let (placed, ctx) := FireContext.spawnShot noted.context request
    (placed, ⟨ctx, noted.requests ++ [request]⟩)

/-- The list is not seen by an emitter. -/
theorem alike : FireContext.Alike fun (ctx : σ) (noted : Noted σ) => noted.context = ctx where
  angle := by
    rintro _ noted rfl origin
    rfl
  random := by
    rintro _ noted rfl spread
    exact ⟨_, rfl, rfl⟩
  spawn := by
    rintro _ noted rfl request
    rfl

end Noted

namespace Emitter

variable {σ : Type} [FireContext σ]

/-- **Taking notes** changes nothing but the notes. -/
theorem tick_noted (e : Emitter) (owner : Vec2) (noted : Noted σ) :
    ∃ requests, e.tick owner noted = ((e.tick owner noted.context).1,
      (e.tick owner noted.context).2.1, ⟨(e.tick owner noted.context).2.2, requests⟩) := by
  have hsame : noted.context = noted.context := rfl
  obtain ⟨noted', heq, hcontext⟩ := e.tick_alike Noted.alike hsame owner
  exact ⟨noted'.requests, by rw [heq, ← hcontext]⟩

/-- The shots that a call asks for. -/
def requests (e : Emitter) : Call σ → List ShotRequest
  | .tick owner ctx => (e.tick owner (Noted.blank ctx)).2.2.requests
  | .restart owner ctx => (e.restart owner (Noted.blank ctx)).2.2.requests
  | .load _ _ | .beat => []

/-- The shots that each call of a session asks for. -/
def requestLog : Emitter → List (Call σ) → List (List ShotRequest)
  | _, [] => []
  | e, c :: calls => e.requests c :: requestLog (e.call c) calls

end Emitter

end BulletHell
