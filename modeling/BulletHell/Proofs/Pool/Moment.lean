import BulletHell.Pool
import Mathlib.Logic.Relation

/-!
# The moments of a pass

A pass takes slots from the front of the active queue while the slots that it spawns and keeps
join the same queue at the back. This file takes that view literally: a pass is a sequence of
small steps on the two queues of a pool, and one slot, the one being visited, is in neither.

## Why the steps are needed

`Pool.tick` keeps the slots that still wait apart from the slots that the pass has queued behind
them, and goes over the waiting ones by recursion. That is convenient, but it says nothing of the
moments in between, and it takes for granted that the pass ends where the waiting slots do.
`Moment.step` counts the visits instead, as a loop over one queue must. `Pool.reaches_tick` says
that the two views agree: the steps end, and they end with what `Pool.tick` returns.

## Main definitions

* `Moment`, `Moment.step` — a point inside a pass, and what happens there
* `Moment.Reaches` — some steps of a pass

## Main results

* `Moment.reaches_run` — one visit, step by step
* `Pool.reaches_tick` — a whole pass, step by step
-/

namespace BulletHell

/-- A point inside a pass. -/
structure Moment (α σ : Type) where
  /-- The queues, without the slot being visited. -/
  pool : Pool α
  /-- Visits that have not begun. -/
  left : Nat
  /-- The slot being visited, and what is left of its visit. -/
  visiting : Option (Nat × Visit α σ)
  state : σ

namespace Moment

variable {α σ : Type}

/-- The beginning of a pass. Every slot that is active now will be visited. -/
def start (p : Pool α) (state : σ) : Moment α σ :=
  ⟨p, p.active.length, none, state⟩

/-- One step of a pass: a visit begins, spawns, or ends. `none` once all visits are over. -/
def step (visit : σ → α → Visit α σ) (m : Moment α σ) : Option (Moment α σ) :=
  match m.visiting with
  | some (slot, .spawn init next) =>
    match m.pool.free with
    | [] => some { m with visiting := some (slot, next none) }
    | fresh :: rest =>
      some { m with pool := ⟨m.pool.active ++ [⟨fresh.index, init fresh.item⟩], rest⟩,
                    visiting := some (slot, next (some fresh.item)) }
  | some (slot, .done true item state) =>
    some { m with pool := ⟨m.pool.active ++ [⟨slot, item⟩], m.pool.free⟩, visiting := none,
                  state := state }
  | some (slot, .done false item state) =>
    some { m with pool := ⟨m.pool.active, m.pool.free ++ [⟨slot, item⟩]⟩, visiting := none,
                  state := state }
  | none =>
    match m.left, m.pool.active with
    | left + 1, slot :: rest =>
      some ⟨⟨rest, m.pool.free⟩, left, some (slot.index, visit m.state slot.item), m.state⟩
    | _, _ => none

/-- Some steps lead from one moment to another. -/
def Reaches (visit : σ → α → Visit α σ) : Moment α σ → Moment α σ → Prop :=
  Relation.ReflTransGen fun m m' => step visit m = some m'

/-- A moment between two visits, seen as a pass in progress. -/
def ofPass (p : Pass α σ) : Moment α σ :=
  ⟨p.toPool, p.waiting.length, none, p.state⟩

/-- A moment inside a visit. -/
def within (p : Pass α σ) (slot : Nat) (v : Visit α σ) : Moment α σ :=
  { ofPass p with visiting := some (slot, v) }

/-- A visit leaves alone what still waits. -/
@[simp] theorem waiting_run (slot : Nat) (v : Visit α σ) (p : Pass α σ) :
    (Pass.run slot v p).waiting = p.waiting := by
  induction v generalizing p with
  | done keep item state =>
    cases keep <;> rfl
  | spawn init next ih =>
    cases hfree : p.free with
    | nil =>
      rw [Pass.run, hfree]
      exact ih none p
    | cons fresh rest =>
      rw [Pass.run, hfree]
      exact ih (some fresh.item) _

/-- One visit, step by step. -/
theorem reaches_run (visit : σ → α → Visit α σ) (slot : Nat) (v : Visit α σ) (p : Pass α σ) :
    Reaches visit (within p slot v) (ofPass (Pass.run slot v p)) := by
  induction v generalizing p with
  | done keep item state =>
    refine .single ?_
    cases keep with
    | true => simp [step, within, ofPass, Pass.run, Pass.toPool]
    | false => simp [step, within, ofPass, Pass.run, Pass.toPool]
  | spawn init next ih =>
    cases hfree : p.free with
    | nil =>
      have hstep : step visit (within p slot (.spawn init next)) =
          some (within p slot (next none)) := by
        simp [step, within, ofPass, Pass.toPool, hfree]
      rw [Pass.run, hfree]
      exact .head hstep (ih none p)
    | cons fresh rest =>
      have hstep : step visit (within p slot (.spawn init next)) =
          some (within { p with behind := ⟨fresh.index, init fresh.item⟩ :: p.behind,
                                free := rest } slot (next (some fresh.item))) := by
        simp [step, within, ofPass, Pass.toPool, hfree]
      rw [Pass.run, hfree]
      exact .head hstep (ih (some fresh.item) _)

/-- The visits of a pass, step by step. -/
theorem reaches_visitAll (visit : σ → α → Visit α σ) (slots : List (Slot α)) (p : Pass α σ)
    (h : p.waiting = slots) :
    Reaches visit (ofPass p) (ofPass (Pass.visitAll visit slots p)) := by
  induction slots generalizing p with
  | nil =>
    rw [Pass.visitAll, ← h]
    exact .refl
  | cons slot rest ih =>
    have hstep : step visit (ofPass p) =
        some (within { p with waiting := rest } slot.index (visit p.state slot.item)) := by
      simp [step, within, ofPass, Pass.toPool, h]
    rw [Pass.visitAll]
    exact .head hstep ((reaches_run visit slot.index _ _).trans (ih _ (by simp)))

theorem waiting_visitAll (visit : σ → α → Visit α σ) (slots : List (Slot α)) (p : Pass α σ) :
    (Pass.visitAll visit slots p).waiting = [] := by
  induction slots generalizing p with
  | nil => rfl
  | cons slot rest ih => exact ih _

end Moment

/-- **A whole pass, step by step.** Its steps come to an end, and there the queues and the state
are those that `Pool.tick` returns. -/
theorem Pool.reaches_tick {α σ : Type} (p : Pool α) (visit : σ → α → Visit α σ) (state : σ) :
    ∃ m, Moment.Reaches visit (Moment.start p state) m ∧ m.step visit = none ∧
      m.visiting = none ∧ (m.pool, m.state) = p.tick visit state := by
  have hsteps := Moment.reaches_visitAll visit p.active ⟨p.active, [], p.free, state⟩ rfl
  have hwaiting := Moment.waiting_visitAll visit p.active ⟨p.active, [], p.free, state⟩
  have hstart : Moment.ofPass ⟨p.active, [], p.free, state⟩ = Moment.start p state := by
    simp [Moment.ofPass, Moment.start, Pass.toPool]
  rw [hstart] at hsteps
  exact ⟨_, hsteps, by simp [Moment.step, Moment.ofPass, hwaiting], rfl, rfl⟩

end BulletHell
