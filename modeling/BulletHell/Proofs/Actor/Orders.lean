import BulletHell.Proofs.Actor.Schedule
import BulletHell.Proofs.Pattern.Noted

/-!
# What an enemy tells its emitters

An enemy does not fire by itself. In a tick it tells its emitters to run on, or to start again, or
both, one after the other; and what it makes of it depends on nothing but whether they were still
running. The emitters in turn know nothing of bursts. So the bursts of an enemy can be described by
the orders that it gives, together with the few things that it remembers about them. How emitters
carry out an order is of no interest here, and neither is where the enemy is.

## Main definitions

* `FireOrder`, `Emitter.Obeys` — the orders to a group, and how it carries them out
* `Enemy.Concerns` — what a call is to the bursts
* `Enemy.Trigger.Pulls` — all that running the emitters can make of it
* `Enemy.Tick.orders`, `Enemy.Tick.requests` — what is ordered in a tick, and the shots that this
  comes to

## Main results

* `Enemy.runEmitters_by_orders` — the emitters do what they are told, and nothing else
* `Enemy.concerns`, `Enemy.Tick.obeys`, `Enemy.Tick.pulls` — what a call, and a tick, makes of it
-/

namespace BulletHell

/-- An order to a group of emitters. -/
inductive FireOrder where
  /-- Run on for one tick; the answer was whether any of them is still running. -/
  | tick (running : Bool)
  /-- Start again. -/
  | restart
deriving DecidableEq, Repr

/-- A group carries out some orders. -/
inductive Emitter.Obeys {σ : Type} [FireContext σ] (position : Vec2) :
    List FireOrder → List Emitter × σ → List Emitter × σ → Prop where
  | done (g : List Emitter × σ) : Obeys position [] g g
  | tick {es es' : List Emitter} {ctx ctx' : σ} {running : Bool} {orders : List FireOrder}
      {g : List Emitter × σ} (htick : tickAll es position ctx = (running, es', ctx'))
      (h : Obeys position orders (es', ctx') g) :
      Obeys position (.tick running :: orders) (es, ctx) g
  | restart {es es' : List Emitter} {ctx ctx' : σ} {running : Bool} {orders : List FireOrder}
      {g : List Emitter × σ} (hrestart : restartAll es position ctx = (running, es', ctx'))
      (h : Obeys position orders (es', ctx') g) :
      Obeys position (.restart :: orders) (es, ctx) g

namespace Enemy

/-! ### Calls -/

/-- What a call is to the bursts: a tick, a step of the route, or nothing. -/
inductive Concerns {σ : Type} [FireContext σ] (e : Enemy) (c : Call σ) : Prop where
  | tick (t : Tick σ) (htick : e.tick? c = some t) (hstep : e.stepTaken? c = none)
      (henemy : t.enemy = e) (hcall : e.call c = t.result.2.1) : Concerns e c
  | step (step : RouteStep) (htick : e.tick? c = none) (hstep : e.stepTaken? c = some step)
      (hcall : (e.call c).trigger = e.trigger.onStep step) : Concerns e c
  | nothing (htick : e.tick? c = none) (hstep : e.stepTaken? c = none)
      (hcall : (e.call c).trigger = e.trigger) : Concerns e c

/-- **One call.** -/
theorem concerns {σ : Type} [FireContext σ] (e : Enemy) (c : Call σ) : e.Concerns c := by
  cases c with
  | tick now cutoff ctx => exact .tick ⟨e, now, cutoff, ctx⟩ rfl rfl rfl rfl
  | unpause lost => exact .nothing rfl rfl rfl
  | beat timing =>
    by_cases hdeaf : e.deafToBeats = true
    · refine .nothing rfl (stepTaken?_of_deaf hdeaf _) ?_
      rw [call, onBeat_eq, if_pos hdeaf]
      rfl
    by_cases hmore : 0 < e.countBeat.beatsToGo
    · refine .nothing rfl (stepTaken?_of_pos hmore _) ?_
      rw [call, onBeat_eq, if_neg hdeaf, if_pos hmore]
      rfl
    have hstep := stepTaken?_beat (σ := σ) ((Bool.not_eq_true _).mp hdeaf) (Int.not_lt.mp hmore)
      timing
    have hcall : (e.call (.beat timing : Call σ)).trigger =
        (e.route.bind (·[e.nextStep]?)).elim e.trigger e.trigger.onStep := by
      rw [call, onBeat_eq, if_neg hdeaf, if_neg hmore]
      exact takeStep_trigger e.emittersHear.countBeat timing
    cases hnext : e.route.bind (·[e.nextStep]?) with
    | none => exact .nothing rfl (hstep.trans hnext) (by rw [hcall, hnext, Option.elim_none])
    | some step => exact .step step rfl (hstep.trans hnext) (by rw [hcall, hnext, Option.elim_some])

/-- Nothing has been fired, and nothing is held. -/
def Trigger.idle : Trigger :=
  ⟨false, none, false, false⟩

/-- The step with which an enemy comes on screen. -/
def firstStep? (s : EnemySpawn) : Option RouteStep :=
  s.route.bind fun r => r.steps[r.start]?

/-- What running the emitters can make of it: a first restart, a burst that goes on, the last burst
of a leg, or another burst. -/
inductive Trigger.Pulls : Trigger → List FireOrder → Trigger → Prop where
  | rearmed {g : Trigger} (hrearm : g.rearm = true) (running : Bool) :
      Pulls g [.restart] { g with firing := running, rearm := false }
  | goesOn {g : Trigger} (hrearm : g.rearm = false) :
      Pulls g [.tick true] { g with firing := true }
  | last {g : Trigger} {left : Nat} (hrearm : g.rearm = false) (hleft : g.burstsLeft = some left)
      (hlast : left ≤ 1) :
      Pulls g [.tick false] { g with firing := false, burstsLeft := some 0, holdingFire := true }
  | again {g : Trigger} (hrearm : g.rearm = false)
      (hleft : ∀ left, g.burstsLeft = some left → 1 < left) (running : Bool) :
      Pulls g [.tick false, .restart]
        { g with firing := running, burstsLeft := g.burstsLeft.map (· - 1) }

section Run

variable {σ : Type} [FireContext σ]

/-- The orders that an enemy gives when it runs its emitters. -/
def orders (e : Enemy) (ctx : σ) : List FireOrder :=
  if e.rearm then [.restart]
  else if (Emitter.tickAll e.emitters e.position ctx).1 then [.tick true]
  else if e.burstsLeft.any (· ≤ 1) then [.tick false]
  else [.tick false, .restart]

theorem endBurst_of_le {e : Enemy} {left : Nat} (h : e.burstsLeft = some left) (hlast : left ≤ 1)
    (ctx : σ) :
    e.endBurst ctx =
      ({ e with firing := false, burstsLeft := some 0, holdingFire := true }, ctx) := by
  have hnone : left - 1 = 0 := by omega
  rw [endBurst_some h, hnone, if_pos rfl]

theorem endBurst_of_lt {e : Enemy} (h : ∀ left, e.burstsLeft = some left → 1 < left) (ctx : σ) :
    e.endBurst ctx =
      { e with firing := false, burstsLeft := e.burstsLeft.map (· - 1) }.startBurst ctx := by
  cases hleft : e.burstsLeft with
  | none =>
    rw [endBurst_none hleft, startBurst_eq, startBurst_eq]
    simp only [hleft, Option.map_none]
  | some left =>
    have hmore := h left hleft
    rw [endBurst_some hleft, if_neg (by omega), Option.map_some]

/-- **Emitters are run by orders**, and what the enemy remembers of it depends on nothing else. -/
theorem runEmitters_by_orders (e : Enemy) (ctx : σ) :
    Emitter.Obeys e.position (e.orders ctx) (e.emitters, ctx)
        ((e.runEmitters ctx).1.emitters, (e.runEmitters ctx).2) ∧
      e.trigger.Pulls (e.orders ctx) (e.runEmitters ctx).1.trigger := by
  rw [runEmitters_eq, orders]
  by_cases hrearm : e.rearm = true
  · rw [if_pos hrearm, if_pos hrearm, startBurst_eq]
    exact ⟨.restart rfl (.done _), .rearmed hrearm _⟩
  rw [if_neg hrearm, if_neg hrearm]
  have hplain : e.trigger.rearm = false := (Bool.not_eq_true _).mp hrearm
  rcases hgroup : Emitter.tickAll e.emitters e.position ctx with ⟨running, es, ctx'⟩
  cases running with
  | true =>
    rw [if_pos rfl, if_pos rfl]
    exact ⟨.tick hgroup (.done _), .goesOn hplain⟩
  | false =>
    rw [if_neg Bool.false_ne_true, if_neg Bool.false_ne_true]
    by_cases hlast : e.burstsLeft.any (· ≤ 1) = true
    · obtain ⟨left, hleft, hle⟩ := (Option.any_eq_true _ _).mp hlast
      have hle : left ≤ 1 := of_decide_eq_true hle
      rw [if_pos hlast, endBurst_of_le (e := { e with emitters := es }) hleft hle]
      exact ⟨.tick hgroup (.done _), .last hplain hleft hle⟩
    · have hmore : ∀ left, e.burstsLeft = some left → 1 < left := by
        intro left hleft
        rw [hleft, Option.any_some, decide_eq_true_iff] at hlast
        omega
      rw [if_neg hlast, endBurst_of_lt (e := { e with emitters := es }) hmore, startBurst_eq]
      exact ⟨.tick hgroup (.restart rfl (.done _)), .again hplain hmore _⟩

namespace Tick

instance (t : Tick σ) : Decidable t.CutOff :=
  inferInstanceAs (Decidable (_ ∨ _))

instance (t : Tick σ) : Decidable t.Works :=
  inferInstanceAs (Decidable (_ ∧ _))

/-- The orders that are given in a tick. -/
def orders (t : Tick σ) : List FireOrder :=
  if t.Works then (t.enemy.moved t.now).orders t.ctx else []

/-- The shots that are asked for in a tick. -/
def requests (t : Tick σ) : List ShotRequest :=
  (t.enemy.tick t.now t.cutoff (Noted.blank t.ctx)).2.2.requests

variable {t : Tick σ}

theorem works_of_mem_orders {o : FireOrder} (h : o ∈ t.orders) : t.Works := by
  by_contra hidle
  rw [orders, if_neg hidle] at h
  exact List.not_mem_nil h

/-- What becomes of the emitters and of the surroundings in a tick is what was ordered. -/
theorem obeys (t : Tick σ) :
    Emitter.Obeys (t.enemy.moved t.now).position t.orders (t.enemy.emitters, t.ctx)
      (t.result.2.1.emitters, t.result.2.2) := by
  rw [orders]
  split
  · next hworks =>
    rw [result_of_works hworks]
    exact ((t.enemy.moved t.now).runEmitters_by_orders t.ctx).1
  · next hidle =>
    rw [result_of_not_works hidle]
    exact .done _

/-- A tick that runs the emitters. -/
theorem pulls (h : t.Works) : t.enemy.trigger.Pulls t.orders t.result.2.1.trigger := by
  rw [orders, if_pos h, result_of_works h]
  exact ((t.enemy.moved t.now).runEmitters_by_orders t.ctx).2

/-- A tick that does not. -/
theorem trigger_of_not_works (h : ¬ t.Works) : t.result.2.1.trigger = t.enemy.trigger := by
  rw [result_of_not_works h]
  rfl

/-- Before the way out an enemy is cut off exactly if it is out of the field or below the cutoff
height. -/
theorem cutOff_iff (h : t.enemy.exiting = false) :
    t.CutOff ↔ outOfBounds (t.enemy.moved t.now).position Playfield.retireMargin = true ∨
      (t.enemy.moved t.now).position.y < t.cutoff := by
  have hgone : t.result.1 = false ↔
      outOfBounds (t.enemy.moved t.now).position Playfield.retireMargin = true := by
    rw [result, tick_eq, h, Bool.and_false, Bool.false_or]
    split
    · next hout => exact iff_of_true rfl hout
    · next hin =>
      refine iff_of_false ?_ hin
      split <;> exact Bool.noConfusion
  rw [CutOff, hgone]

end Tick

end Run

end Enemy

end BulletHell
