import BulletHell.Proofs.Pattern.Carrying
import BulletHell.Proofs.Pattern.Noted

/-!
# Who has fired a shot, and how it was aimed

A request for a shot names its angle, but it does not tell how the angle has come about. The mode
and the offset that it was computed from belong to an emitter which has long gone on when the
request is looked at. So a call is also described by its firings: the emitter as it was in front of
the instruction that fires, and what it fired into. The request can be computed from that, and what
is shown here is that the firings of a call are complete: they make up the requests of the call, one
by one.

No other instruction looks at the surroundings, and firing ends the tick. So a shot is always fired
into the surroundings that its call has begun with, however many cycles came before.

## Main definitions

* `Emitter.addends` — the two angles that are added up for a shot, if any are
* `Emitter.Firing`, `Emitter.firings` — a shot that is being fired, and those of a call

## Main results

* `Emitter.aim_eq` — the angle of a shot is the offset, or it is the folded sum
* `Emitter.run_requests`, `Emitter.tick_requests` — notes are taken of what is fired
* `Emitter.requests_eq` — the requests of a call are those of its firings
-/

namespace BulletHell

namespace Emitter

/-! ### Aiming -/

section Aim

variable {σ : Type} [FireContext σ]

/-- The two angles that are added up for the next shot. The mode that aims at nothing adds nothing
up. The target is looked for after the random angle was drawn. -/
def addends (e : Emitter) (origin : Vec2) (ctx : σ) : Option (Int × Int) :=
  match e.mode with
  | .static => none
  | .aimed => some (e.angleOffset, FireContext.angleToTarget ctx origin)
  | .random =>
    let (spread, ctx) := FireContext.randomSpread ctx e.angleOffset
    some (spread, FireContext.angleToTarget ctx origin)

theorem aim_eq (e : Emitter) (origin : Vec2) (ctx : σ) :
    (e.aim origin ctx).1 =
      (e.addends origin ctx).elim e.angleOffset fun sum => wrapAngle (sum.1 + sum.2) := by
  cases hmode : e.mode <;> simp only [aim, addends, hmode, Option.elim]

/-- An emitter aims alike where notes are taken, and aiming alone takes none. -/
theorem aim_noted (e : Emitter) (origin : Vec2) (noted : Noted σ) :
    (e.aim origin noted).1 = (e.aim origin noted.context).1 ∧
      (e.aim origin noted).2.requests = noted.requests := by
  cases hmode : e.mode with
  | static => simp only [aim, hmode, and_self]
  | aimed =>
    simp only [aim, hmode, and_true]
    rfl
  | random =>
    simp only [aim, hmode]
    exact ⟨rfl, rfl⟩

end Aim

/-! ### Firing -/

/-- The next instruction fires. -/
def atFire (e : Emitter) : Bool :=
  match e.next? with
  | some .fire => true
  | _ => false

theorem atFire_iff {e : Emitter} : e.atFire = true ↔ e.next? = some .fire := by
  rw [atFire]
  split
  · next h => exact iff_of_true rfl h
  · next h => exact iff_of_false Bool.false_ne_true h

/-- A shot that is being fired. -/
structure Firing (σ : Type) where
  /-- The emitter, in front of the instruction. -/
  shooter : Emitter
  origin : Vec2
  /-- What it fires into. -/
  ctx : σ

variable {σ : Type} [FireContext σ]

/-- The shot that is asked for. -/
def Firing.request (x : Firing σ) : ShotRequest :=
  ⟨x.origin, (x.shooter.aim x.origin x.ctx).1, x.shooter.shot, x.shooter.damage⟩

/-- The shots that are fired in a tick. -/
def tickFirings (e : Emitter) (owner : Vec2) (ctx : σ) : List (Firing σ) :=
  ((e.tickCycles owner ctx).filter atFire).map (⟨·, e.origin owner, ctx⟩)

/-- The shots that are fired in a call. -/
def firings (e : Emitter) : Call σ → List (Firing σ)
  | .tick owner ctx => e.tickFirings owner ctx
  | .restart owner ctx => e.rewind.tickFirings owner ctx
  | .load _ _ | .beat => []

/-- A cycle that does not fire has nothing to do with the surroundings. -/
theorem exists_cycle_eq {e : Emitter} (h : e.atFire = false) (origin : Vec2) :
    ∃ flow e', ∀ {τ : Type} [FireContext τ] (ctx : τ), e.cycle origin ctx = (flow, e', ctx) := by
  cases hnext : e.next? with
  | none => exact ⟨_, _, fun ctx => cycle_of_next?_eq_none hnext origin ctx⟩
  | some op =>
    cases op with
    | fire => exact absurd (h.symm.trans (atFire_iff.mpr hnext)) Bool.false_ne_true
    | _ => exact ⟨_, _, fun ctx => cycle_of_next? hnext origin ctx⟩

/-- A cycle that fires ends the tick. -/
theorem cycle_of_atFire {e : Emitter} (h : e.atFire = true) (origin : Vec2) (ctx : σ) :
    e.cycle origin ctx = (.yielded, (e.fire origin ctx).1.advance, (e.fire origin ctx).2) :=
  cycle_of_next? (atFire_iff.mp h) origin ctx

theorem fire_requests (e : Emitter) (origin : Vec2) (noted : Noted σ) :
    (e.fire origin noted).2.requests =
      noted.requests ++ [Firing.request ⟨e, origin, noted.context⟩] := by
  obtain ⟨hangle, hblank⟩ := e.aim_noted origin noted
  rw [Firing.request, ← hangle, ← hblank]
  rfl

/-- **Any number of cycles.** Those in front of the one that fires leave the surroundings to it as
they were. -/
theorem run_requests (origin : Vec2) (budget : Nat) (e : Emitter) (noted : Noted σ) :
    (run origin budget e noted).2.2.requests =
      noted.requests ++ ((cycles origin budget e noted.context).filter atFire).map
        fun shooter => Firing.request ⟨shooter, origin, noted.context⟩ := by
  induction budget generalizing e with
  | zero => exact (List.append_nil _).symm
  | succ budget ih =>
    cases hfire : e.atFire with
    | true =>
      simp only [run, cycles, cycle_of_atFire hfire, List.filter_cons_of_pos hfire,
        List.filter_nil, List.map_cons, List.map_nil]
      exact e.fire_requests origin noted
    | false =>
      obtain ⟨flow, e', hcycle⟩ := exists_cycle_eq hfire origin
      have hquiet : ¬ e.atFire = true := (Bool.not_eq_true _).mpr hfire
      simp only [run, cycles, hcycle]
      cases flow with
      | running =>
        rw [List.filter_cons_of_neg hquiet]
        exact ih e'
      | yielded =>
        rw [List.filter_cons_of_neg hquiet]
        exact (List.append_nil _).symm
      | ended =>
        rw [List.filter_cons_of_neg hquiet]
        exact (List.append_nil _).symm

/-- **One tick.** -/
theorem tick_requests (e : Emitter) (owner : Vec2) (noted : Noted σ) :
    (e.tick owner noted).2.2.requests =
      noted.requests ++ (e.tickFirings owner noted.context).map Firing.request := by
  rw [tick, tickFirings, tickCycles, List.map_map]
  split
  · exact (List.append_nil _).symm
  · dsimp only
    split
    · exact (List.append_nil _).symm
    · exact run_requests _ _ _ noted

/-- **The requests of a call** are those of its firings. -/
theorem requests_eq (e : Emitter) (c : Call σ) :
    e.requests c = (e.firings c).map Firing.request := by
  cases c with
  | load spec mirrored => rfl
  | beat => rfl
  | tick owner ctx => exact e.tick_requests owner (.blank ctx)
  | restart owner ctx => exact e.rewind.tick_requests owner (.blank ctx)

end Emitter

end BulletHell
