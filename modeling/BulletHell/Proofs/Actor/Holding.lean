import BulletHell.Proofs.Actor.Countdown
import BulletHell.Proofs.Pattern.Unfolding

/-!
# Held on a leg

On some legs beats do not count while a burst is running, and the enemy is held until it has fired.
Whether a burst is running is remembered from one tick to the next: it is what the emitters have
answered the last time that they were run. They are not run in every tick. An enemy that holds fire
has told itself before that no burst is running. One that is below the cutoff height, or that is on
its way out of the field, is told nothing; it goes on from what it knew when it got there.

So a beat that holds an enemy proves a burst that was left running, but not that it has been run in
the last tick: it may have been cut off since. Nothing ends such a burst, and no beat that the enemy
hears down there will count.

## Main definitions

* `Enemy.Call`, `Enemy.after` — what becomes of an enemy on screen
* `Enemy.Tick`, `Enemy.ticks` — its ticks, with the enemy that each of them finds
* `Enemy.IsHeld` — a beat leaves the enemy on its leg
* `Enemy.LeftRunning` — the last burst was left running, and has been cut off since

## Main results

* `Enemy.isHeld_iff` — an enemy is held if it waits for a burst
* `Enemy.remembers_after` — what an enemy remembers of its ticks
* `Enemy.held_by_the_last_burst`
-/

namespace BulletHell

section Answers

variable {σ : Type}

/-- What the emitters of a group answer one by one. -/
def Emitter.answers (act : Emitter → σ → Bool × Emitter × σ) : List Emitter → σ → List Bool
  | [], _ => []
  | e :: rest, ctx => (act e ctx).1 :: answers act rest (act e ctx).2.2

/-- A group is running while any of its emitters is. -/
theorem Emitter.running_iff (act : Emitter → σ → Bool × Emitter × σ) (es : List Emitter) (ctx : σ) :
    (actAll act es ctx).1 = true ↔ true ∈ answers act es ctx := by
  induction es generalizing ctx with
  | nil => exact iff_of_false Bool.false_ne_true List.not_mem_nil
  | cons e rest ih =>
    show ((act e ctx).1 || (actAll act rest (act e ctx).2.2).1) = true ↔ _
    rw [Bool.or_eq_true, answers, List.mem_cons, ih, eq_comm]

end Answers

namespace Enemy

variable {σ : Type} [FireContext σ]

/-! ### Calls -/

/-- What an enemy is called for while it is on screen. -/
inductive Call (σ : Type) where
  | tick (now : Float) (cutoff : Float32) (ctx : σ)
  | beat (timing : LegTiming)
  | unpause (lost : Float)

/-- The enemy after a call. -/
def call (e : Enemy) : Call σ → Enemy
  | .tick now cutoff ctx => (e.tick now cutoff ctx).2.1
  | .beat timing => e.onBeat timing
  | .unpause lost => e.onUnpause lost

/-- The enemy after some calls. -/
def after (e : Enemy) (calls : List (Call σ)) : Enemy :=
  calls.foldl call e

/-- A tick, with the enemy that it finds. -/
structure Tick (σ : Type) where
  enemy : Enemy
  now : Float
  cutoff : Float32
  ctx : σ

/-- The tick that a call is, if it is one. -/
def tick? (e : Enemy) : Call σ → Option (Tick σ)
  | .tick now cutoff ctx => some ⟨e, now, cutoff, ctx⟩
  | .beat _ => none
  | .unpause _ => none

/-- The ticks among some calls. -/
def ticks (e : Enemy) : List (Call σ) → List (Tick σ)
  | [] => []
  | c :: calls => (e.tick? c).toList ++ ticks (e.call c) calls

/-! ### Ticks -/

/-- What the emitters answer the last time that they are run in a tick: they are run once more if a
burst begins in it. -/
def lastAnswers (e : Enemy) (ctx : σ) : List Bool :=
  if e.rearm then Emitter.answers (·.restart e.position) e.emitters ctx
  else if (Emitter.tickAll e.emitters e.position ctx).1 || e.burstsLeft.any (· ≤ 1) then
    Emitter.answers (·.tick e.position) e.emitters ctx
  else
    Emitter.answers (·.restart e.position) (Emitter.tickAll e.emitters e.position ctx).2.1
      (Emitter.tickAll e.emitters e.position ctx).2.2

theorem startBurst_firing (e : Enemy) (ctx : σ) :
    (e.startBurst ctx).1.firing = true ↔
      true ∈ Emitter.answers (·.restart e.position) e.emitters ctx := by
  rw [startBurst_eq]
  exact Emitter.running_iff _ _ _

theorem endBurst_firing (e : Enemy) (ctx : σ) :
    (e.endBurst ctx).1.firing = true ↔
      e.burstsLeft.any (· ≤ 1) = false ∧
        true ∈ Emitter.answers (·.restart e.position) e.emitters ctx := by
  cases hleft : e.burstsLeft with
  | none =>
    rw [endBurst_none hleft, startBurst_firing]
    exact (and_iff_right rfl).symm
  | some left =>
    rw [endBurst_some hleft, Option.any_some, decide_eq_false_iff_not]
    by_cases hlast : left ≤ 1
    · rw [if_pos (by omega)]
      exact iff_of_false Bool.false_ne_true fun h => h.1 hlast
    · rw [if_neg (by omega), startBurst_firing]
      exact (and_iff_right hlast).symm

/-- **An enemy remembers** whether any emitter was still running. -/
theorem runEmitters_firing (e : Enemy) (ctx : σ) :
    (e.runEmitters ctx).1.firing = true ↔ true ∈ e.lastAnswers ctx := by
  have hticked : (Emitter.tickAll e.emitters e.position ctx).1 = true ↔
      true ∈ Emitter.answers (·.tick e.position) e.emitters ctx := Emitter.running_iff _ _ _
  rw [runEmitters_eq, lastAnswers]
  by_cases hrearm : e.rearm = true
  · rw [if_pos hrearm, if_pos hrearm]
    exact startBurst_firing _ ctx
  rw [if_neg hrearm, if_neg hrearm]
  by_cases hrunning : (Emitter.tickAll e.emitters e.position ctx).1 = true
  · rw [if_pos hrunning, if_pos (by rw [hrunning, Bool.true_or])]
    exact iff_of_true rfl (hticked.mp hrunning)
  rw [if_neg hrunning, endBurst_firing, (Bool.not_eq_true _).mp hrunning, Bool.false_or]
  by_cases hlast : e.burstsLeft.any (· ≤ 1) = true
  · rw [if_pos hlast]
    have hidle := mt hticked.mpr hrunning
    exact iff_of_false (fun h => Bool.false_ne_true (h.1.symm.trans hlast)) hidle
  · rw [if_neg hlast]
    exact and_iff_right ((Bool.not_eq_true _).mp hlast)

/-- Told to hold fire, an enemy knows of no burst. -/
def AtEase (e : Enemy) : Prop :=
  e.holdingFire = true → e.firing = false

theorem AtEase.of_open {e : Enemy} (h : e.holdingFire = false) : e.AtEase :=
  fun hholding => absurd (h.symm.trans hholding) Bool.false_ne_true

theorem atEase_startBurst {e : Enemy} (h : e.holdingFire = false) (ctx : σ) :
    (e.startBurst ctx).1.AtEase :=
  .of_open h

theorem atEase_endBurst {e : Enemy} (h : e.holdingFire = false) (ctx : σ) :
    (e.endBurst ctx).1.AtEase := by
  cases hleft : e.burstsLeft with
  | none =>
    rw [endBurst_none hleft]
    exact atEase_startBurst h ctx
  | some left =>
    rw [endBurst_some hleft]
    split
    · exact fun _ => rfl
    · exact atEase_startBurst h ctx

theorem atEase_runEmitters {e : Enemy} (h : e.holdingFire = false) (ctx : σ) :
    (e.runEmitters ctx).1.AtEase := by
  rw [runEmitters_eq]
  split
  · exact atEase_startBurst h ctx
  · split
    · exact .of_open h
    · refine atEase_endBurst ?_ _
      exact h

namespace Tick

/-- The tick, played. -/
def result (t : Tick σ) : Bool × Enemy × σ :=
  t.enemy.tick t.now t.cutoff t.ctx

/-- The enemy is below the cutoff height, or on its way out of the field. -/
def CutOff (t : Tick σ) : Prop :=
  t.result.1 = false ∨ (t.enemy.moved t.now).position.y < t.cutoff

/-- The emitters are run. -/
def Works (t : Tick σ) : Prop :=
  ¬ t.CutOff ∧ t.enemy.holdingFire = false

/-- What they answer the last time. -/
def answers (t : Tick σ) : List Bool :=
  (t.enemy.moved t.now).lastAnswers t.ctx

variable {t : Tick σ}

/-- The enemy moves, and its emitters are run. -/
theorem result_of_works (h : t.Works) :
    t.result = (true, (t.enemy.moved t.now).runEmitters t.ctx) := by
  obtain ⟨hcutOff, hopen⟩ := h
  obtain ⟨hstays, habove⟩ := not_or.mp hcutOff
  rw [result, tick_eq] at hstays ⊢
  split
  · next hgone =>
    rw [if_pos hgone] at hstays
    exact absurd rfl hstays
  · rw [hopen, Bool.or_false, decide_eq_false habove]
    rfl

/-- The enemy moves, and that is all. -/
theorem result_of_not_works (h : ¬ t.Works) : t.result.2 = (t.enemy.moved t.now, t.ctx) := by
  rw [result, tick_eq]
  split
  · rfl
  next hstays =>
    split
    · rfl
    next hopen =>
      rw [Bool.or_eq_true, not_or, decide_eq_true_iff, Bool.not_eq_true] at hopen
      refine absurd ⟨not_or.mpr ⟨?_, hopen.1⟩, hopen.2⟩ h
      rw [result, tick_eq, if_neg hstays]
      split <;> exact Bool.noConfusion

end Tick

/-! ### What an enemy remembers -/

/-- A burst was left running, and every tick since then was cut off. -/
def LeftRunning (ticks : List (Tick σ)) : Prop :=
  ∃ before t since, ticks = before ++ t :: since ∧ t.Works ∧ true ∈ t.answers ∧
    ∀ t' ∈ since, t'.CutOff

theorem not_leftRunning_nil : ¬ LeftRunning ([] : List (Tick σ)) := by
  rintro ⟨before, t, since, hnil, -⟩
  exact List.append_ne_nil_of_right_ne_nil before (List.cons_ne_nil t since) hnil.symm

/-- What is said of a place in a list that has become longer by one: it is the last place, or it was
there before. -/
theorem exists_split_snoc {α : Type} {P : List α → α → List α → Prop} (xs : List α) (y : α) :
    (∃ before x since, xs ++ [y] = before ++ x :: since ∧ P before x since) ↔
      P xs y [] ∨ ∃ before x since, xs = before ++ x :: since ∧ P before x (since ++ [y]) := by
  constructor
  · rintro ⟨before, x, since, heq, hP⟩
    rcases List.eq_nil_or_concat since with rfl | ⟨since, last, rfl⟩
    · obtain ⟨rfl, hlast⟩ := List.append_inj' heq rfl
      obtain rfl := List.singleton_inj.mp hlast
      exact .inl hP
    · rw [List.concat_eq_append] at heq hP
      rw [← List.cons_append, ← List.append_assoc] at heq
      obtain ⟨rfl, hlast⟩ := List.append_inj' heq rfl
      obtain rfl := List.singleton_inj.mp hlast
      exact .inr ⟨before, x, since, rfl, hP⟩
  · rintro (hP | ⟨before, x, since, rfl, hP⟩)
    · exact ⟨xs, y, [], rfl, hP⟩
    · exact ⟨before, x, since ++ [y], by rw [List.append_assoc, List.cons_append], hP⟩

/-- **One more tick** runs the emitters, or is cut off, or changes nothing of what is known. -/
theorem leftRunning_snoc (ticks : List (Tick σ)) (t : Tick σ) :
    LeftRunning (ticks ++ [t]) ↔ t.Works ∧ true ∈ t.answers ∨ t.CutOff ∧ LeftRunning ticks := by
  rw [LeftRunning, exists_split_snoc]
  refine or_congr ?_ ?_
  · exact and_congr_right fun _ => and_iff_left fun t' ht' => absurd ht' List.not_mem_nil
  · constructor
    · rintro ⟨before, t', since, heq, hworks, hrunning, hsince⟩
      rw [List.forall_mem_append, List.forall_mem_singleton] at hsince
      exact ⟨hsince.2, before, t', since, heq, hworks, hrunning, hsince.1⟩
    · rintro ⟨hcutOff, before, t', since, heq, hworks, hrunning, hsince⟩
      refine ⟨before, t', since, heq, hworks, hrunning, ?_⟩
      rw [List.forall_mem_append, List.forall_mem_singleton]
      exact ⟨hsince, hcutOff⟩

/-- What an enemy remembers of its ticks. -/
structure Remembers (ticks : List (Tick σ)) (e : Enemy) : Prop where
  firing : e.firing = true ↔ LeftRunning ticks
  atEase : e.AtEase

theorem takeStep_holdingFire (e : Enemy) (timing : LegTiming)
    (h : (e.takeStep timing).holdingFire = true) : e.holdingFire = true := by
  change (e.takeStep timing).trigger.holdingFire = true at h
  rw [takeStep_trigger] at h
  cases hstep : e.route.bind (·[e.nextStep]?) with
  | none =>
    rw [hstep] at h
    exact h
  | some step =>
    rw [hstep] at h
    exact absurd h Bool.false_ne_true

/-- Steps of the route do not touch the burst, and never make an enemy hold fire. -/
theorem Remembers.takeStep {ticks : List (Tick σ)} {e : Enemy} (h : Remembers ticks e)
    (timing : LegTiming) : Remembers ticks (e.takeStep timing) := by
  refine ⟨?_, fun hholding => ?_⟩
  · rw [takeStep_firing]
    exact h.firing
  · rw [takeStep_firing]
    exact h.atEase (e.takeStep_holdingFire timing hholding)

theorem remembers_spawn (e : Enemy) (s : EnemySpawn) (timing : LegTiming) :
    Remembers ([] : List (Tick σ)) (e.spawn s timing) := by
  rw [spawn_eq]
  refine Remembers.takeStep ⟨?_, fun _ => rfl⟩ timing
  exact iff_of_false Bool.false_ne_true not_leftRunning_nil

theorem Remembers.onBeat {ticks : List (Tick σ)} {e : Enemy} (h : Remembers ticks e)
    (timing : LegTiming) : Remembers ticks (e.onBeat timing) := by
  rw [onBeat_eq]
  split
  · exact ⟨h.firing, h.atEase⟩
  · split
    · exact ⟨h.firing, h.atEase⟩
    · exact Remembers.takeStep (e := e.emittersHear.countBeat) ⟨h.firing, h.atEase⟩ timing

/-- **A tick.** -/
theorem Remembers.tick {ticks : List (Tick σ)} {t : Tick σ} (h : Remembers ticks t.enemy) :
    Remembers (ticks ++ [t]) t.result.2.1 := by
  by_cases hworks : t.Works
  · rw [Tick.result_of_works hworks]
    refine ⟨?_, atEase_runEmitters (e := t.enemy.moved t.now) hworks.2 t.ctx⟩
    rw [runEmitters_firing, leftRunning_snoc]
    constructor
    · exact fun hrunning => .inl ⟨hworks, hrunning⟩
    · rintro (⟨-, hrunning⟩ | ⟨hcutOff, -⟩)
      · exact hrunning
      · exact absurd hcutOff hworks.1
  · rw [Tick.result_of_not_works hworks]
    refine ⟨?_, h.atEase⟩
    rw [leftRunning_snoc, ← h.firing]
    constructor
    · intro (hfiring : t.enemy.firing = true)
      by_cases hcutOff : t.CutOff
      · exact .inr ⟨hcutOff, hfiring⟩
      · have hholding : t.enemy.holdingFire = true := by
          rw [← Bool.not_eq_false]
          exact fun hopen => hworks ⟨hcutOff, hopen⟩
        exact absurd ((h.atEase hholding).symm.trans hfiring) Bool.false_ne_true
    · rintro (⟨hworks', -⟩ | ⟨-, hfiring⟩)
      · exact absurd hworks' hworks
      · exact hfiring

theorem Remembers.call {ticks : List (Tick σ)} {e : Enemy} (h : Remembers ticks e) (c : Call σ) :
    Remembers (ticks ++ (e.tick? c).toList) (e.call c) := by
  cases c with
  | tick now cutoff ctx => exact Remembers.tick (t := ⟨e, now, cutoff, ctx⟩) h
  | beat timing =>
    rw [tick?, Option.toList_none, List.append_nil]
    exact h.onBeat timing
  | unpause lost =>
    rw [tick?, Option.toList_none, List.append_nil]
    exact ⟨h.firing, h.atEase⟩

/-- **After any calls** an enemy remembers its ticks. -/
theorem Remembers.after {ticks : List (Tick σ)} {e : Enemy} (h : Remembers ticks e)
    (calls : List (Call σ)) : Remembers (ticks ++ e.ticks calls) (e.after calls) := by
  induction calls generalizing ticks e with
  | nil => exact (List.append_nil ticks).symm ▸ h
  | cons c calls ih =>
    rw [Enemy.ticks, ← List.append_assoc]
    exact ih (h.call c)

/-! ### Held on a leg -/

/-- A beat leaves an enemy on its leg: it takes nothing off the countdown, and no step is taken. -/
def IsHeld (e : Enemy) (timing : LegTiming) : Prop :=
  e.exiting = false ∧ (e.onBeat timing).bearing = e.bearing

theorem isHeld_iff (e : Enemy) (timing : LegTiming) :
    e.IsHeld timing ↔ e.exiting = false ∧ e.waits = true := by
  refine and_congr_right fun hroute => ?_
  rw [onBeat_eq, deafToBeats_eq hroute]
  by_cases hwaits : e.waits = true
  · rw [if_pos hwaits]
    exact iff_of_true rfl hwaits
  · rw [if_neg hwaits]
    refine iff_of_false (fun hsame => ?_) hwaits
    split at hsame
    · exact e.countBeat_beatsToGo_ne (congrArg Bearing.beatsToGo hsame)
    · cases hstep : e.emittersHear.countBeat.route.bind
          (·[e.emittersHear.countBeat.nextStep]?) with
      | none =>
        rw [takeStep_none hstep, setOut_bearing] at hsame
        have hexiting : true = e.exiting := congrArg Bearing.exiting hsame
        exact Bool.false_ne_true (hroute.symm.trans hexiting.symm)
      | some step =>
        rw [takeStep_some hstep, setOut_bearing] at hsame
        have hnext : e.nextStep + 1 = e.nextStep := congrArg Bearing.nextStep hsame
        omega

/-- Nothing that is cut off lets go of a held enemy. -/
theorem IsHeld.call {e : Enemy} {timing : LegTiming} (h : e.IsHeld timing) {c : Call σ}
    (hcutOff : ∀ t, e.tick? c = some t → t.CutOff) (timing' : LegTiming) :
    (e.call c).IsHeld timing' := by
  rw [isHeld_iff] at h ⊢
  cases c with
  | tick now cutoff ctx =>
    have hidle : ¬ Tick.Works ⟨e, now, cutoff, ctx⟩ := fun hworks => hworks.1 (hcutOff _ rfl)
    rw [show e.call (.tick now cutoff ctx) = e.moved now from
      congrArg Prod.fst (Tick.result_of_not_works hidle)]
    exact h
  | beat timing =>
    rw [Enemy.call, onBeat_eq, deafToBeats_eq h.1, if_pos h.2]
    exact h
  | unpause lost => exact h

theorem IsHeld.after {e : Enemy} {timing : LegTiming} (h : e.IsHeld timing)
    {calls : List (Call σ)} (hcutOff : ∀ t ∈ e.ticks calls, t.CutOff) (timing' : LegTiming) :
    (e.after calls).IsHeld timing' := by
  induction calls generalizing e timing with
  | nil =>
    rw [isHeld_iff] at h ⊢
    exact h
  | cons c calls ih =>
    refine ih (h.call (fun t ht => hcutOff t ?_) timing) fun t ht => hcutOff t ?_
    · exact List.mem_append_left _ (Option.mem_toList.mpr ht)
    · exact List.mem_append_right _ ht

/-- **What a held enemy proves.** Take any enemy that comes on screen, and any ticks, beats and
pauses. A beat holds it on its leg exactly if it is on a leg that waits for bursts and the emitters
have left a burst running the last time that they were run. All ticks since then have found it below
the cutoff height, or on its way out of the field. So if the last tick was not cut off, then the
emitters were run in it, and one of them is still running; and no enemy is held while it holds fire.

But an enemy that is cut off in the middle of a burst is held as well, and for as long as it is cut
off. -/
theorem held_by_the_last_burst (slot : Enemy) (s : EnemySpawn) (start : LegTiming)
    (calls : List (Call σ)) (timing : LegTiming) :
    let e := (slot.spawn s start).after calls
    let ticks := (slot.spawn s start).ticks calls
    (e.IsHeld timing ↔ e.exiting = false ∧ e.waitToFire = true ∧ LeftRunning ticks) ∧
      (e.IsHeld timing → e.holdingFire = false ∧
        ∀ t, ticks.getLast? = some t → t.CutOff ∨ t.Works ∧ true ∈ t.answers) ∧
      (e.IsHeld timing → ∀ more : List (Call σ), (∀ t ∈ e.ticks more, t.CutOff) →
        ∀ timing', (e.after more).IsHeld timing') := by
  intro e ticks
  have hspawn : Remembers ([] : List (Tick σ)) (slot.spawn s start) := slot.remembers_spawn s start
  have hremembers : Remembers ticks e := hspawn.after calls
  refine ⟨?_, fun hheld => ?_, fun hheld more hcutOff => hheld.after hcutOff⟩
  · rw [isHeld_iff, waits, Bool.and_eq_true, hremembers.firing]
  · rw [isHeld_iff, waits, Bool.and_eq_true] at hheld
    obtain ⟨-, -, hfiring⟩ := hheld
    refine ⟨?_, fun t hlast => ?_⟩
    · rw [← Bool.not_eq_true]
      exact fun hholding => Bool.false_ne_true ((hremembers.atEase hholding).symm.trans hfiring)
    · obtain ⟨ticks', hticks⟩ := List.getLast?_eq_some_iff.mp hlast
      have hleft := hremembers.firing.mp hfiring
      rw [hticks, leftRunning_snoc] at hleft
      exact hleft.symm.imp_left And.left

/-- An enemy that fires once on every burst and then waits. Its route dives to the bottom of the
screen, and waits there for the burst to end. -/
def diver : EnemySpawn where
  id := ⟨0⟩
  archetype := ⟨"diver", 1, 0, [], [], [], .linear, .linear,
    [⟨Vec2.zero, ⟨0⟩, 1, ⟨[.fire, .waitFrames 100]⟩⟩]⟩
  lane := 0
  mirrored := false
  exempt := false
  route := some ⟨[{ target := ⟨0, 2⟩, beats := 0 },
    { target := ⟨0, -3⟩, beats := 0, waitToFire := true }], 0⟩

/-- It has begun a burst, the beat has taken it below the cutoff height, and another tick has found
it there. -/
def dive : List (Call FireControl) :=
  [.tick 0.1 (-1.5) .emptySky, .beat ⟨0.5, 0.5, 4⟩, .tick 0.6 (-1.5) .emptySky]

/-- The next beat does not get the diver off the screen, nor does any later one. -/
theorem held_by_the_last_burst_of_diver :
    let e := ((blank 4 8).spawn diver ⟨0, 0.5, 4⟩).after dive
    e.IsHeld ⟨1, 0.5, 4⟩ ∧
      (∃ t, (((blank 4 8).spawn diver ⟨0, 0.5, 4⟩).ticks dive).getLast? = some t ∧ t.CutOff) ∧
      ∀ more : List (Call FireControl), (∀ t ∈ e.ticks more, t.CutOff) →
        ∀ timing, (e.after more).IsHeld timing := by
  intro e
  have hheld : e.IsHeld ⟨1, 0.5, 4⟩ := (e.isHeld_iff _).mpr ⟨by decide +kernel, by decide +kernel⟩
  obtain ⟨-, -, hstuck⟩ := held_by_the_last_burst (blank 4 8) diver ⟨0, 0.5, 4⟩ dive ⟨1, 0.5, 4⟩
  exact ⟨hheld, ⟨_, rfl, .inr (by decide +kernel)⟩, hstuck hheld⟩

end Enemy

end BulletHell
