import BulletHell.Proofs.Actor.Orders
import BulletHell.Proofs.Pattern.Firing
import BulletHell.Proofs.Pattern.Requests

/-!
# How many shots a tick can ask for

An emitter may run a great many instructions in one tick, through loops that nobody has checked, but
a shot is what ends the tick. So a tick asks for one shot at most, and for none if it finds the
program at its end.

For a group that is not enough. An owner that sees its group come to an end may start it again in
the same tick, so that every emitter is run twice. What helps is that the group has come to its end
only if each of its emitters has, and those that have asked for nothing. Of the two rounds at most
one can ask for shots, and that one is bounded by the number of emitters.

So a bare bound for one round would not do. What is carried along is a bound by the emitters that
are left running, which is nothing where the group has ended.

## Main definitions

* `Noted.Asks` — up to a number of shots were asked for in between
* `FireOrder.mayFire` — an order that shots may come of
* `FireGate.requests` — the shots that a call of a fire gate asks for

## Main results

* `Emitter.tick_asks`, `Emitter.restart_asks` — one emitter
* `Emitter.actAll_asks` — one round of a group
* `Enemy.Tick.result_noted`, `FireGate.tick_noted` — the notes are of the call without notes
* `Enemy.Tick.requests_length_le`, `FireGate.requests_length_le` — the owners
* `no_emitter_fires_twice`
-/

namespace BulletHell

variable {σ : Type}

/-- Up to a number of shots were asked for in between. -/
def Noted.Asks (noted : Noted σ) (most : Nat) (noted' : Noted σ) : Prop :=
  ∃ asked, noted'.requests = noted.requests ++ asked ∧ asked.length ≤ most

namespace Noted.Asks

variable {a b c : Noted σ} {m n : Nat}

theorem nothing (h : b.requests = a.requests) : a.Asks m b :=
  ⟨[], by rw [h, List.append_nil], Nat.zero_le m⟩

theorem mono (h : a.Asks m b) (hle : m ≤ n) : a.Asks n b := by
  obtain ⟨asked, happend, hlen⟩ := h
  exact ⟨asked, happend, Nat.le_trans hlen hle⟩

theorem trans (h : a.Asks m b) (h' : b.Asks n c) : a.Asks (m + n) c := by
  obtain ⟨asked, happend, hlen⟩ := h
  obtain ⟨asked', happend', hlen'⟩ := h'
  refine ⟨asked ++ asked', ?_, ?_⟩
  · rw [happend', happend, List.append_assoc]
  · rw [List.length_append]
    exact Nat.add_le_add hlen hlen'

theorem once (h : a.Asks (m * n) b) (hle : m ≤ 1) : a.Asks n b := by
  refine h.mono ?_
  have hmul := Nat.mul_le_mul_right n hle
  rwa [Nat.one_mul] at hmul

/-- From a blank list on, all that is on the list was asked for. -/
theorem length_le {ctx : σ} (h : (blank ctx).Asks m b) : b.requests.length ≤ m := by
  obtain ⟨asked, happend, hlen⟩ := h
  rw [happend]
  exact hlen

end Noted.Asks

namespace Emitter

/-! ### Rounds of a group -/

/-- All emitters of a group answer. -/
theorem answers_length (act : Emitter → σ → Bool × Emitter × σ) (es : List Emitter) (ctx : σ) :
    (answers act es ctx).length = es.length := by
  induction es generalizing ctx with
  | nil => rfl
  | cons e rest ih => exact congrArg (· + 1) (ih _)

/-- A group asks for no more shots than it has emitters that are left running. -/
theorem actAll_asks_count {act : Emitter → Noted σ → Bool × Emitter × Noted σ}
    (hact : ∀ (e : Emitter) (noted : Noted σ),
      noted.Asks (act e noted).1.toNat (act e noted).2.2)
    (es : List Emitter) (noted : Noted σ) :
    noted.Asks ((answers act es noted).count true) (actAll act es noted).2.2 := by
  induction es generalizing noted with
  | nil => exact .nothing rfl
  | cons e rest ih =>
    have hfirst : ((act e noted).1 :: answers act rest (act e noted).2.2).count true =
        (act e noted).1.toNat + (answers act rest (act e noted).2.2).count true := by
      rw [List.count_cons, Nat.add_comm]
      cases (act e noted).1 <;> rfl
    rw [answers, hfirst]
    exact (hact e noted).trans (ih _)

/-- **One round of a group** asks for as many shots at most as there are emitters, and for none if
the group has ended. -/
theorem actAll_asks {act : Emitter → Noted σ → Bool × Emitter × Noted σ}
    (hact : ∀ (e : Emitter) (noted : Noted σ),
      noted.Asks (act e noted).1.toNat (act e noted).2.2)
    (es : List Emitter) (noted : Noted σ) :
    noted.Asks ((actAll act es noted).1.toNat * es.length) (actAll act es noted).2.2 := by
  refine (actAll_asks_count hact es noted).mono ?_
  cases hrunning : (actAll act es noted).1 with
  | true =>
    rw [Bool.toNat_true, Nat.one_mul, ← answers_length act es noted]
    exact List.count_le_length
  | false =>
    have hended : true ∉ answers act es noted := by
      rw [← running_iff, hrunning]
      exact Bool.false_ne_true
    rw [List.count_eq_zero.mpr hended]
    exact Nat.zero_le _

end Emitter

/-- The most shots that a cycle asks for, by what becomes of the tick. -/
def Flow.shots : Flow → Nat
  | .yielded => 1
  | .running | .ended => 0

variable [FireContext σ]

namespace Emitter

/-! ### One emitter -/

theorem fire_asks (e : Emitter) (origin : Vec2) (noted : Noted σ) :
    noted.Asks 1 (e.fire origin noted).2 :=
  ⟨[Firing.request ⟨e, origin, noted.context⟩], e.fire_requests origin noted, Nat.le_refl 1⟩

/-- Only an instruction that ends the tick asks for a shot. -/
theorem execute_asks (e : Emitter) (origin : Vec2) (noted : Noted σ) (op : Instruction) :
    noted.Asks (e.execute origin noted op).1.shots (e.execute origin noted op).2.2 := by
  cases op with
  | fire => exact e.fire_asks origin noted
  | _ => exact .nothing rfl

theorem cycle_asks (e : Emitter) (origin : Vec2) (noted : Noted σ) :
    noted.Asks (e.cycle origin noted).1.shots (e.cycle origin noted).2.2 := by
  cases hfetch : e.program.fetch? e.counter with
  | none =>
    simp only [cycle, hfetch]
    exact .nothing rfl
  | some op =>
    simp only [cycle, hfetch]
    exact e.execute_asks origin noted op

/-- Any number of cycles: all but the last one leave the tick running, and ask for nothing. -/
theorem run_asks (origin : Vec2) (budget : Nat) (e : Emitter) (noted : Noted σ) :
    noted.Asks (run origin budget e noted).1.toNat (run origin budget e noted).2.2 := by
  induction budget generalizing e noted with
  | zero => exact .nothing rfl
  | succ budget ih =>
    have hcycle := e.cycle_asks origin noted
    rcases hfirst : e.cycle origin noted with ⟨flow, e', noted'⟩
    rw [hfirst] at hcycle
    simp only [run, hfirst]
    cases flow with
    | running => exact (hcycle.trans (ih e' noted')).mono (Nat.le_of_eq (Nat.zero_add _))
    | yielded => exact hcycle
    | ended => exact hcycle

/-- **One tick of an emitter** asks for one shot at most, and for none at the end of the program. -/
theorem tick_asks (e : Emitter) (owner : Vec2) (noted : Noted σ) :
    noted.Asks (e.tick owner noted).1.toNat (e.tick owner noted).2.2 := by
  rcases e.tick_cases owner noted with ⟨-, htick⟩ | ⟨-, -, htick⟩ | ⟨-, -, htick⟩
  · rw [htick]
    exact .nothing rfl
  · rw [htick]
    exact .nothing rfl
  · rw [htick]
    exact run_asks _ _ _ noted

theorem restart_asks (e : Emitter) (owner : Vec2) (noted : Noted σ) :
    noted.Asks (e.restart owner noted).1.toNat (e.restart owner noted).2.2 :=
  e.rewind.tick_asks owner noted

/-! ### Groups -/

theorem tickAll_asks (es : List Emitter) (owner : Vec2) (noted : Noted σ) :
    noted.Asks ((tickAll es owner noted).1.toNat * es.length) (tickAll es owner noted).2.2 :=
  actAll_asks (fun e noted => e.tick_asks owner noted) es noted

/-- A group that starts again may go to its end at once, but it never asks for more. -/
theorem restartAll_asks (es : List Emitter) (owner : Vec2) (noted : Noted σ) :
    noted.Asks es.length (restartAll es owner noted).2.2 :=
  (actAll_asks (fun e noted => e.restart_asks owner noted) es noted).once (Bool.toNat_le _)

theorem tickAll_length (es : List Emitter) (owner : Vec2) (ctx : σ) :
    (tickAll es owner ctx).2.1.length = es.length :=
  (tickAll_course (.top _) (allFire_true es) owner ctx).2.1

theorem restartAll_length (es : List Emitter) (owner : Vec2) (ctx : σ) :
    (restartAll es owner ctx).2.1.length = es.length :=
  (restartAll_course (.top _) (allFire_true es) owner ctx).2.1

end Emitter

/-! ### Enemies -/

/-- An order that shots may come of. A group that was told to run on may have fired only if it is
still running. -/
def FireOrder.mayFire : FireOrder → Bool
  | .tick running => running
  | .restart => true

/-- An order that shots may come of brings as many at most as there are emitters. -/
theorem Emitter.Obeys.asks {position : Vec2} {orders : List FireOrder}
    {g g' : List Emitter × Noted σ} (h : Obeys position orders g g') :
    g.2.Asks (orders.countP FireOrder.mayFire * g.1.length) g'.2 := by
  induction h with
  | done g => exact .nothing rfl
  | @tick es es' noted noted' running orders g htick _ ih =>
    have hround := tickAll_asks es position noted
    have hlen := tickAll_length es position noted
    rw [htick] at hround hlen
    rw [hlen] at ih
    refine (hround.trans ih).mono (Nat.le_of_eq ?_)
    rw [← Nat.add_mul, List.countP_cons, Nat.add_comm]
    cases running <;> rfl
  | @restart es es' noted noted' running orders g hrestart _ ih =>
    have hround := restartAll_asks es position noted
    have hlen := restartAll_length es position noted
    rw [hrestart] at hround hlen
    rw [hlen] at ih
    refine (hround.trans ih).mono (Nat.le_of_eq ?_)
    rw [List.countP_cons_of_pos rfl, Nat.succ_mul, Nat.add_comm]

/-- A group that is told to start again, after it was told to run on, had ended. -/
theorem Enemy.Trigger.Pulls.countP_le {g g' : Enemy.Trigger} {orders : List FireOrder}
    (h : g.Pulls orders g') : orders.countP FireOrder.mayFire ≤ 1 := by
  cases h with
  | rearmed => exact Nat.le_refl 1
  | goesOn => exact Nat.le_refl 1
  | last => exact Nat.zero_le 1
  | again => exact Nat.le_refl 1

namespace Enemy.Tick

/-- A tick that is seen through, with a list for the shots that are asked for in it. -/
def noted (t : Tick σ) : Tick (Noted σ) :=
  ⟨t.enemy, t.now, t.cutoff, .blank t.ctx⟩

/-- **Taking notes** changes nothing but the notes. -/
theorem result_noted (t : Tick σ) :
    t.noted.result = (t.result.1, t.result.2.1, ⟨t.result.2.2, t.requests⟩) := by
  have hsame : (Noted.blank t.ctx).context = t.ctx := rfl
  obtain ⟨noted', heq, hcontext⟩ := t.enemy.tick_alike Noted.alike hsame t.now t.cutoff
  have hrequests : t.requests = noted'.requests := by rw [requests, heq]
  rw [hrequests, result, result, ← hcontext]
  exact heq

/-- **One tick of an enemy** asks for no more shots than it has emitters. -/
theorem requests_length_le (t : Tick σ) : t.requests.length ≤ t.enemy.emitters.length := by
  have hasks := t.noted.obeys.asks
  have honce : t.noted.orders.countP FireOrder.mayFire ≤ 1 := by
    by_cases hworks : t.noted.Works
    · exact (pulls hworks).countP_le
    · rw [orders, if_neg hworks]
      exact Nat.zero_le 1
  exact (hasks.once honce).length_le

end Enemy.Tick

/-! ### Fire gates -/

namespace FireGate

theorem startBurst_asks (g : FireGate) (owner : Vec2) (noted : Noted σ) :
    noted.Asks g.emitters.length (g.startBurst owner noted).2 := by
  rw [startBurst]
  split
  · exact .nothing rfl
  · exact Emitter.restartAll_asks g.emitters owner noted

/-- **One call of a fire gate**, likewise: where a burst has ended in it, the round that has shown
this asked for nothing. -/
theorem tick_asks (g : FireGate) (owner : Vec2) (noted : Noted σ) :
    noted.Asks g.emitters.length (g.tick owner noted).2 := by
  rw [tick]
  dsimp only
  split
  · have hround := Emitter.tickAll_asks g.emitters owner noted
    have hlen := Emitter.tickAll_length g.emitters owner noted
    rcases hgroup : Emitter.tickAll g.emitters owner noted with ⟨running, es, noted'⟩
    rw [hgroup] at hround hlen
    cases running with
    | true => exact hround.mono (Nat.le_of_eq (Nat.one_mul _))
    | false =>
      have hagain := startBurst_asks ⟨es, false, g.frames - 1⟩ owner noted'
      have hboth := hround.trans hagain
      rw [Bool.toNat_false, Nat.zero_mul, Nat.zero_add, hlen] at hboth
      exact hboth
  · exact startBurst_asks { g with frames := g.frames - 1 } owner noted

/-- The shots that a call of a fire gate asks for. -/
def requests (g : FireGate) (owner : Vec2) (ctx : σ) : List ShotRequest :=
  (g.tick owner (Noted.blank ctx)).2.requests

/-- **Taking notes** changes nothing but the notes. -/
theorem tick_noted (g : FireGate) (owner : Vec2) (ctx : σ) :
    g.tick owner (Noted.blank ctx) =
      ((g.tick owner ctx).1, ⟨(g.tick owner ctx).2, g.requests owner ctx⟩) := by
  have hsame : (Noted.blank ctx).context = ctx := rfl
  obtain ⟨noted', heq, hcontext⟩ := g.tick_alike Noted.alike hsame owner
  rw [requests, heq, ← hcontext]

theorem requests_length_le (g : FireGate) (owner : Vec2) (ctx : σ) :
    (g.requests owner ctx).length ≤ g.emitters.length :=
  (g.tick_asks owner (Noted.blank ctx)).length_le

end FireGate

/-! ### Together -/

namespace Emitter

/-- A call of an emitter asks for one shot at most, and for none unless the answer is `true`. -/
theorem requests_length_le (e : Emitter) (c : Call σ) :
    (e.requests c).length ≤ ((e.entry c).answer.getD false).toNat := by
  cases c with
  | tick owner ctx =>
    obtain ⟨requests, hnoted⟩ := e.tick_noted owner (Noted.blank ctx)
    have hasks := (e.tick_asks owner (Noted.blank ctx)).length_le
    rw [hnoted] at hasks
    rw [Emitter.requests, hnoted]
    exact hasks
  | restart owner ctx =>
    obtain ⟨requests, hnoted⟩ := e.rewind.tick_noted owner (Noted.blank ctx)
    have hasks := (e.restart_asks owner (Noted.blank ctx)).length_le
    rw [restart, hnoted] at hasks
    rw [Emitter.requests, restart, hnoted]
    exact hasks
  | load spec mirrored => exact Nat.zero_le _
  | beat => exact Nat.zero_le _

theorem requests_length_le_one (e : Emitter) (c : Call σ) : (e.requests c).length ≤ 1 :=
  Nat.le_trans (e.requests_length_le c) (Bool.toNat_le _)

/-- Where a shot is asked for, the answer is `true`. -/
theorem answer_of_requests {e : Emitter} {c : Call σ} (h : e.requests c ≠ []) :
    (e.entry c).answer.getD false = true := by
  by_contra hanswer
  have hnone := e.requests_length_le c
  rw [(Bool.not_eq_true _).mp hanswer, Bool.toNat_false] at hnone
  exact h (List.length_eq_zero_iff.mp (Nat.le_zero.mp hnone))

end Emitter

/-- **No emitter fires twice in one tick.** Whatever its program and its state, a tick or a restart
of an emitter asks for one shot at most, and only if it is answered by `true`. So a tick of an
enemy, or a call of a fire gate, asks for no more shots than there are emitters, even where it runs
each of them to the end of a burst and on into the next one. -/
theorem no_emitter_fires_twice :
    (∀ (e : Emitter) (owner : Vec2) (ctx : σ),
      ((e.requests (.tick owner ctx)).length ≤ 1 ∧
        (e.requests (.tick owner ctx) ≠ [] → (e.tick owner ctx).1 = true)) ∧
      ((e.requests (.restart owner ctx)).length ≤ 1 ∧
        (e.requests (.restart owner ctx) ≠ [] → (e.restart owner ctx).1 = true))) ∧
    (∀ t : Enemy.Tick σ, t.requests.length ≤ t.enemy.emitters.length) ∧
    ∀ (g : FireGate) (owner : Vec2) (ctx : σ),
      (g.requests owner ctx).length ≤ g.emitters.length := by
  refine ⟨fun e owner ctx => ⟨?_, ?_⟩, Enemy.Tick.requests_length_le, FireGate.requests_length_le⟩
  · exact ⟨e.requests_length_le_one _, Emitter.answer_of_requests⟩
  · exact ⟨e.requests_length_le_one _, Emitter.answer_of_requests⟩

end BulletHell
