import BulletHell.Proofs.Actor.Holding

/-!
# The schedule of a route

An enemy takes the first step of its route when it comes on screen, and one more step at the end of
every leg. How far it has come can be told by counting beats. Not all of them count: a beat that
finds it waiting for a burst is held back. But of the others each leg takes exactly as many as its
step says, and a jump, which has no beats, still takes one: the countdown is looked at only when a
beat has been taken off it. So the legs divide the beats among them, and the leg that an enemy is on
is the one that the number of its beats falls into. It makes no difference what comes in between.

## Main definitions

* `beatsAlong` — the beats that some legs take together
* `Enemy.freeBeats` — the beats among some calls that are not held back
* `Enemy.stepTaken?`, `Enemy.stepsTaken` — the steps that calls take
* `Enemy.OnSchedule` — the leg that a number of beats falls into

## Main results

* `Enemy.OnSchedule.call` — one call
* `Enemy.on_schedule`
-/

namespace BulletHell

/-! ### Beats of a route -/

/-- The beats that some legs take. A jump takes one. -/
def beatsAlong : List RouteStep → Nat
  | [] => 0
  | step :: rest => max 1 step.beats + beatsAlong rest

section BeatsAlong

variable {legs : List RouteStep} {k k' : Nat}

theorem beatsAlong_append (legs legs' : List RouteStep) :
    beatsAlong (legs ++ legs') = beatsAlong legs + beatsAlong legs' := by
  induction legs with
  | nil => exact (Nat.zero_add _).symm
  | cons step rest ih => rw [List.cons_append, beatsAlong, beatsAlong, ih, Nat.add_assoc]

/-- One more leg. -/
theorem beatsAlong_take_succ {step : RouteStep} (h : legs[k]? = some step) :
    beatsAlong (legs.take (k + 1)) = beatsAlong (legs.take k) + max 1 step.beats := by
  rw [List.take_add_one, h, beatsAlong_append]
  rfl

theorem beatsAlong_take_le (h : k ≤ k') :
    beatsAlong (legs.take k) ≤ beatsAlong (legs.take k') := by
  obtain ⟨more, rfl⟩ := Nat.exists_eq_add_of_le h
  rw [List.take_add, beatsAlong_append]
  exact Nat.le_add_right _ _

theorem beatsAlong_take_le_all (legs : List RouteStep) (k : Nat) :
    beatsAlong (legs.take k) ≤ beatsAlong legs := by
  conv => rhs; rw [← List.take_append_drop k legs, beatsAlong_append]
  exact Nat.le_add_right _ _

/-- A number of beats falls into one leg only. -/
theorem leg_unique {beats : Nat} (hk : beatsAlong (legs.take k) ≤ beats)
    (hk_end : beats < beatsAlong (legs.take (k + 1))) (hk' : beatsAlong (legs.take k') ≤ beats)
    (hk'_end : beats < beatsAlong (legs.take (k' + 1))) : k' = k := by
  rcases Nat.lt_trichotomy k' k with hlt | heq | hgt
  · have hle : beatsAlong (legs.take (k' + 1)) ≤ beatsAlong (legs.take k) := beatsAlong_take_le hlt
    omega
  · exact heq
  · have hle : beatsAlong (legs.take (k + 1)) ≤ beatsAlong (legs.take k') := beatsAlong_take_le hgt
    omega

end BeatsAlong

namespace Enemy

variable {σ : Type} {e : Enemy}

/-! ### Beats and steps of an enemy -/

/-- Is the call a beat that is not held back? -/
def freeBeat (e : Enemy) : Call σ → Nat
  | .beat _ => if e.waits then 0 else 1
  | .tick _ _ _ | .unpause _ => 0

/-- The step of the route that a call takes. -/
def stepTaken? (e : Enemy) : Call σ → Option RouteStep
  | .beat _ =>
    if e.deafToBeats || decide (0 < e.countBeat.beatsToGo) then none
    else e.route.bind (·[e.nextStep]?)
  | .tick _ _ _ | .unpause _ => none

theorem stepTaken?_of_deaf (h : e.deafToBeats = true) (c : Call σ) : e.stepTaken? c = none := by
  cases c with
  | tick now cutoff ctx => rfl
  | beat timing => exact if_pos (by rw [h, Bool.true_or])
  | unpause lost => rfl

/-- No step is taken while a beat leaves others to go. -/
theorem stepTaken?_of_pos (h : 0 < e.countBeat.beatsToGo) (c : Call σ) :
    e.stepTaken? c = none := by
  cases c with
  | tick now cutoff ctx => rfl
  | beat timing => exact if_pos (by rw [decide_eq_true h, Bool.or_true])
  | unpause lost => rfl

theorem stepTaken?_beat (hear : e.deafToBeats = false) (hleft : e.countBeat.beatsToGo ≤ 0)
    (timing : LegTiming) :
    e.stepTaken? (.beat timing : Call σ) = e.route.bind (·[e.nextStep]?) :=
  if_neg (by rw [hear, decide_eq_false (Int.not_lt.mpr hleft)]; exact Bool.false_ne_true)

/-- A beat that does not count changes nothing of the way. -/
theorem onBeat_of_deaf (h : e.deafToBeats = true) (timing : LegTiming) :
    (e.onBeat timing).bearing = e.bearing := by
  rw [onBeat_eq, if_pos h]
  rfl

variable [FireContext σ]

/-- The number of beats that are not held back. -/
def freeBeats : Enemy → List (Call σ) → Nat
  | _, [] => 0
  | e, c :: calls => e.freeBeat c + freeBeats (e.call c) calls

/-- The steps of the route that some calls take. -/
def stepsTaken : Enemy → List (Call σ) → List RouteStep
  | _, [] => []
  | e, c :: calls => (e.stepTaken? c).toList ++ stepsTaken (e.call c) calls

/-- **On the way out** nothing changes it any more. -/
theorem call_of_exiting (h : e.exiting = true) (c : Call σ) :
    (e.call c).bearing = e.bearing ∧ e.stepTaken? c = none := by
  have hdeaf : e.deafToBeats = true := by rw [deafToBeats, h, Bool.true_or]
  refine ⟨?_, stepTaken?_of_deaf hdeaf c⟩
  cases c with
  | tick now cutoff ctx => exact e.tick_bearing now cutoff ctx
  | beat timing => exact onBeat_of_deaf hdeaf timing
  | unpause lost => exact e.onUnpause_bearing lost

theorem after_of_exiting (h : e.exiting = true) (calls : List (Call σ)) :
    (e.after calls).bearing = e.bearing ∧ e.stepsTaken calls = [] := by
  induction calls generalizing e with
  | nil => exact ⟨rfl, rfl⟩
  | cons c calls ih =>
    obtain ⟨hbearing, hstep⟩ := call_of_exiting h c
    have hexiting : (e.call c).exiting = true := (congrArg Bearing.exiting hbearing).trans h
    obtain ⟨hlater, hsteps⟩ := ih hexiting
    refine ⟨hlater.trans hbearing, ?_⟩
    rw [stepsTaken, hstep, hsteps]
    rfl

/-! ### The side of an enemy -/

theorem call_mirrored (e : Enemy) (c : Call σ) : (e.call c).mirrored = e.mirrored := by
  cases c with
  | tick now cutoff ctx => exact congrArg Bearing.mirrored (e.tick_bearing now cutoff ctx)
  | beat timing =>
    rw [call, onBeat_eq]
    split
    · rfl
    · split
      · rfl
      · exact takeStep_mirrored _ timing
  | unpause lost => rfl

/-- An enemy stays on the side on which it came. -/
theorem after_spawn_mirrored (slot : Enemy) (s : EnemySpawn) (timing : LegTiming)
    (calls : List (Call σ)) : ((slot.spawn s timing).after calls).mirrored = s.mirrored := by
  have hafter : ∀ e : Enemy, (e.after calls).mirrored = e.mirrored := by
    induction calls with
    | nil => exact fun _ => rfl
    | cons c calls ih => exact fun e => (ih (e.call c)).trans (e.call_mirrored c)
  rw [hafter, spawn_eq, takeStep_mirrored]
  rfl

/-! ### The schedule -/

variable {steps taken : List RouteStep} {start k beats : Nat}

/-- The leg that a number of beats falls into, if the route is joined at `start`; or the way out
when all legs are over. The steps that were taken are those up to this leg. -/
inductive OnSchedule (steps : List RouteStep) (start beats : Nat) (taken : List RouteStep)
    (b : Bearing) : Prop where
  | leg {k left : Nat} (hleg : b.OnLeg steps (start + k) left)
      (hbegun : beatsAlong ((steps.drop start).take k) ≤ beats)
      (hleft : beats + max 1 left = beatsAlong ((steps.drop start).take (k + 1)))
      (htaken : taken = (steps.drop start).take (k + 1)) : OnSchedule steps start beats taken b
  | exit (hexit : b.exiting = true) (hover : beatsAlong (steps.drop start) ≤ beats)
      (htaken : taken = steps.drop start) : OnSchedule steps start beats taken b

/-- At the beginning of a leg all beats before it are over. -/
theorem Bearing.Begins.onSchedule {b : Bearing} (h : b.Begins steps (start + k))
    (hsteps : ∀ step ∈ steps.drop start, step.beats < 0x80000000)
    (hbeats : beats = beatsAlong ((steps.drop start).take k)) :
    OnSchedule steps start beats ((steps.drop start).take (k + 1)) b := by
  have hget : (steps.drop start)[k]? = steps[start + k]? := List.getElem?_drop
  cases hstep : steps[start + k]? with
  | none =>
    cases h with
    | leg hstep' => cases hstep'.symm.trans hstep
    | exit _ hexit =>
      have hlength : (steps.drop start).length ≤ k :=
        List.getElem?_eq_none_iff.mp (hget.trans hstep)
      rw [List.take_of_length_le hlength] at hbeats
      exact .exit hexit (Nat.le_of_eq hbeats.symm) (List.take_of_length_le (by omega))
  | some step =>
    have hlegs : (steps.drop start)[k]? = some step := hget.trans hstep
    refine .leg (h.onLeg hstep (hsteps step (List.mem_of_getElem? hlegs)))
      (Nat.le_of_eq hbeats.symm) ?_ rfl
    rw [beatsAlong_take_succ hlegs, hbeats]

/-- On the schedule of legs of up to some two billion beats no countdown is longer than that. -/
theorem Bearing.OnLeg.le_of_schedule {b : Bearing} {left : Nat}
    (hleg : b.OnLeg steps (start + k) left)
    (hsteps : ∀ step ∈ steps.drop start, step.beats < 0x80000000)
    (hbegun : beatsAlong ((steps.drop start).take k) ≤ beats)
    (hleft : beats + max 1 left = beatsAlong ((steps.drop start).take (k + 1))) :
    left < 0x80000000 := by
  obtain ⟨step, hstep, -, -⟩ := hleg.bound
  have hlegs : (steps.drop start)[k]? = some step := List.getElem?_drop.trans hstep
  have hbeats := hsteps step (List.mem_of_getElem? hlegs)
  rw [beatsAlong_take_succ hlegs] at hleft
  omega

/-- **One call** keeps to the schedule. -/
theorem OnSchedule.call (h : OnSchedule steps start beats taken e.bearing)
    (hsteps : ∀ step ∈ steps.drop start, step.beats < 0x80000000) (c : Call σ) :
    OnSchedule steps start (beats + e.freeBeat c) (taken ++ (e.stepTaken? c).toList)
      (e.call c).bearing := by
  -- without a beat that counts neither the bearing nor the number of beats changes
  have hrests : (e.call c).bearing = e.bearing → e.freeBeat c = 0 → e.stepTaken? c = none →
      OnSchedule steps start (beats + e.freeBeat c) (taken ++ (e.stepTaken? c).toList)
        (e.call c).bearing := by
    intro hbearing hfree hstep
    rw [hbearing, hfree, hstep, Option.toList_none, List.append_nil]
    exact h
  cases c with
  | tick now cutoff ctx => exact hrests (e.tick_bearing now cutoff ctx) rfl rfl
  | unpause lost => exact hrests (e.onUnpause_bearing lost) rfl rfl
  | beat timing =>
    cases h with
    | exit hexit hover htaken =>
      obtain ⟨hbearing, hstep⟩ := call_of_exiting (c := (.beat timing : Call σ)) hexit
      rw [hbearing, hstep, Option.toList_none, List.append_nil]
      exact .exit hexit (Nat.le_add_right_of_le hover) htaken
    | @leg k left hleg hbegun hleft htaken =>
      have hdeaf : e.deafToBeats = e.waits := deafToBeats_eq hleg.exiting
      cases hwaits : e.waits with
      | true =>
        rw [hwaits] at hdeaf
        exact hrests (onBeat_of_deaf hdeaf timing) (if_pos hwaits) (stepTaken?_of_deaf hdeaf _)
      | false =>
        rw [hwaits] at hdeaf
        have hfree : e.freeBeat (.beat timing : Call σ) = 1 :=
          if_neg (by rw [hwaits]; exact Bool.false_ne_true)
        have hhigh : left < 0x80000000 := hleg.le_of_schedule hsteps hbegun hleft
        have hcounted : e.countBeat.beatsToGo = left - 1 :=
          countBeat_of_onLeg hleg (by omega) (by omega)
        rw [hfree]
        rcases Nat.lt_or_ge 1 left with hmore | hlast
        · rw [stepTaken?_of_pos (by omega), Option.toList_none, List.append_nil]
          have hless := onBeat_of_lt hleg hwaits (by omega) (by omega) timing
          have hcount : (left : Int) - 1 = (left - 1 : Nat) := by omega
          rw [hcount] at hless
          exact .leg hless (Nat.le_add_right_of_le hbegun) (by omega) htaken
        · have hroute : e.route = some steps := hleg.route
          have hnext : e.nextStep = start + k + 1 := hleg.nextStep
          have hbegins := onBeat_of_le hleg hwaits (by omega) (by omega) timing
          rw [Nat.add_assoc] at hbegins
          rw [stepTaken?_beat hdeaf (by omega), hroute, hnext, Option.bind_some, Nat.add_assoc,
            ← List.getElem?_drop, htaken, ← List.take_add_one]
          exact hbegins.onSchedule hsteps (by omega)

/-- Any calls keep to the schedule. -/
theorem OnSchedule.after (h : OnSchedule steps start beats taken e.bearing)
    (hsteps : ∀ step ∈ steps.drop start, step.beats < 0x80000000) (calls : List (Call σ)) :
    OnSchedule steps start (beats + e.freeBeats calls) (taken ++ e.stepsTaken calls)
      (e.after calls).bearing := by
  induction calls generalizing beats taken e with
  | nil =>
    rw [stepsTaken, List.append_nil]
    exact h
  | cons c calls ih =>
    rw [freeBeats, stepsTaken, ← Nat.add_assoc, ← List.append_assoc]
    exact ih (h.call hsteps c)

/-- **Enemies keep to the schedule.** Take any enemy that joins a route with legs of up to some two
billion beats, and any ticks, beats and pauses. As long as there are fewer beats than all its legs
take, not counting those that are held back, it is on the leg that they fall into, and has taken the
steps up to this leg, each of them once. From then on it is on its way out, and takes no step any
more. -/
theorem on_schedule (slot : Enemy) {s : EnemySpawn} (hroute : s.route = some ⟨steps, start⟩)
    (hsteps : ∀ step ∈ steps.drop start, step.beats < 0x80000000) (timing : LegTiming)
    (calls : List (Call σ)) :
    let spawned := slot.spawn s timing
    let e := spawned.after calls
    let legs := steps.drop start
    let beats := spawned.freeBeats calls
    (beats < beatsAlong legs → ∃ k step, legs[k]? = some step ∧
        (∀ k', beatsAlong (legs.take k') ≤ beats ∧ beats < beatsAlong (legs.take (k' + 1)) ↔
          k' = k) ∧
        e.destination = (if s.mirrored then ⟨-step.target.x, step.target.y⟩ else step.target) ∧
        e.waitToFire = step.waitToFire ∧ e.exiting = false ∧ e.nextStep = start + k + 1 ∧
        legs.take 1 ++ spawned.stepsTaken calls = legs.take (k + 1)) ∧
      (beatsAlong legs ≤ beats → e.exiting = true ∧
        legs.take 1 ++ spawned.stepsTaken calls = legs ∧
        ∀ more : List (Call σ), (e.after more).bearing = e.bearing ∧ e.stepsTaken more = []) := by
  intro spawned e legs beats
  have hspawned : OnSchedule steps start 0 (legs.take 1) spawned.bearing :=
    (slot.begins_spawn hroute timing).onSchedule (k := 0) hsteps rfl
  have hschedule : OnSchedule steps start beats (legs.take 1 ++ spawned.stepsTaken calls)
      e.bearing := by
    have hafter := hspawned.after hsteps calls
    rwa [Nat.zero_add] at hafter
  cases hschedule with
  | @leg k left hleg hbegun hleft htaken =>
    have hwithin : beats < beatsAlong (legs.take (k + 1)) := Nat.lt_of_lt_of_eq (by omega) hleft
    have hall : beatsAlong (legs.take (k + 1)) ≤ beatsAlong legs := beatsAlong_take_le_all legs _
    refine ⟨fun _ => ?_, fun hover =>
      absurd (Nat.lt_of_lt_of_le hwithin hall) (Nat.not_lt.mpr hover)⟩
    obtain ⟨step, hstep, hdestination, hwait⟩ := hleg.bound
    have hside : e.bearing.mirrored = s.mirrored := after_spawn_mirrored slot s timing calls
    rw [Bearing.aim, hside] at hdestination
    refine ⟨k, step, List.getElem?_drop.trans hstep, fun k' => ⟨?_, ?_⟩, hdestination, hwait,
      hleg.exiting, hleg.nextStep, htaken⟩
    · exact fun ⟨hk', hk'_end⟩ => leg_unique hbegun hwithin hk' hk'_end
    · rintro rfl
      exact ⟨hbegun, hwithin⟩
  | exit hexit hover htaken =>
    refine ⟨fun hwithin => absurd hwithin (Nat.not_lt.mpr hover), fun _ =>
      ⟨hexit, htaken, fun more => ?_⟩⟩
    exact after_of_exiting hexit more

/-- An enemy that joins its route at the second step. It jumps, and then goes on for two beats,
which wait for its burst. -/
def latecomer : EnemySpawn where
  id := ⟨0⟩
  archetype := ⟨"latecomer", 1, 0, [], [], [], .linear, .linear,
    [⟨Vec2.zero, ⟨0⟩, 1, ⟨[.fire, .waitFrames 100]⟩⟩]⟩
  lane := 0
  mirrored := true
  exempt := false
  route := some ⟨[{ target := ⟨3, 3⟩, beats := 9 }, { target := ⟨1, 2⟩, beats := 0 },
    { target := ⟨2, 1⟩, beats := 2, waitToFire := true }], 1⟩

/-- The burst that it begins at the jump holds back the second of its beats, and so the jump has
taken one beat, and the other leg none. Where it does not fire, it is on its way out at the third
beat. -/
theorem on_schedule_of_latecomer :
    let spawned := (blank 4 8).spawn latecomer ⟨0, 0.5, 4⟩
    let held : List (Call FireControl) :=
      [.tick 0.1 (-1.5) .emptySky, .beat ⟨0.5, 0.5, 4⟩, .beat ⟨1, 0.5, 4⟩]
    let free : List (Call FireControl) :=
      [.beat ⟨0.5, 0.5, 4⟩, .beat ⟨1, 0.5, 4⟩, .beat ⟨1.5, 0.5, 4⟩]
    (spawned.freeBeats held = 1 ∧ (spawned.after held).nextStep = 3 ∧
        (spawned.after held).destination = ⟨-2, 1⟩) ∧
      spawned.freeBeats free = 3 ∧ (spawned.after free).exiting = true ∧
        ∀ more : List (Call FireControl),
          ((spawned.after free).after more).bearing = (spawned.after free).bearing := by
  intro spawned held free
  have hheld : spawned.freeBeats held = 1 := by decide +kernel
  have hfree : spawned.freeBeats free = 3 := by decide +kernel
  obtain ⟨hway, -⟩ := on_schedule (blank 4 8) (s := latecomer) rfl (by decide) ⟨0, 0.5, 4⟩ held
  obtain ⟨-, hout⟩ := on_schedule (blank 4 8) (s := latecomer) rfl (by decide) ⟨0, 0.5, 4⟩ free
  obtain ⟨k, step, hstep, hleg, hdestination, -, -, hnext, -⟩ :=
    hway (Nat.lt_of_le_of_lt (Nat.le_of_eq hheld) (by decide))
  obtain rfl : 1 = k := (hleg 1).mp (hheld ▸ by decide)
  obtain rfl := Option.some.inj hstep
  obtain ⟨hexiting, -, hstays⟩ := hout (Nat.le_trans (by decide) (Nat.le_of_eq hfree.symm))
  exact ⟨⟨hheld, hnext, hdestination⟩, hfree, hexiting, fun more => (hstays more).1⟩

end Enemy

end BulletHell
