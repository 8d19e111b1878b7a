import BulletHell.Proofs.Actor.Legs
import BulletHell.Proofs.Pool.Twins

/-!
# Recycled slots

A pool hands out the same slots again and again, and an enemy that comes on screen still has in it
what was there before. Its room for emitters and for open loops is meant to stay. Everything else
is written before it is looked at, with two exceptions. The step to take next is left alone where
there is no route to take it on, and nobody asks for it. Where a leg began is written by legs that
take time only; a first leg that is a jump leaves there what an earlier enemy had.

So enemies pass for the same if they differ in the next step at most, and in that only without a
route. Whatever is done to both, they go on doing so.

## Main definitions

* `Enemy.limits`, `Player.limits` — the room that was given to a slot when it was made
* `Enemy.Passes` — an enemy of given room that passes for another one
* `Enemy.nextLeg` — the beats of the leg that an enemy sets out on next

## Main results

* `Enemy.Passes.tick`, `onBeat`, `onUnpause`, `takeDamage` — what is done to both
* `Enemy.tick_withStart`, `takeStep_withStart_of_pos`, `takeStep_withStart_of_jump` — an enemy whose
  leg began elsewhere
* `Enemy.passes_spawn_of_start` — an enemy has nothing from the one before it but where a leg began
* `Enemy.passes_spawn` — nor that, if its legs take time
-/

namespace BulletHell

/-- The room for emitters and for open loops. -/
def Player.limits (p : Player) : Nat × Nat :=
  (p.maxEmitters, p.maxDepth)

namespace Enemy

/-- The enemy with another step to take next. -/
def withNextStep (e : Enemy) (place : Nat) : Enemy :=
  { e with nextStep := place }

/-- The enemy with another beginning of its leg. -/
def withStart (e : Enemy) (place : Vec2) : Enemy :=
  { e with start := place }

/-- The enemy with another step to take next, and with another beginning of its leg. -/
def withLeg (e : Enemy) (place : Nat) (start : Vec2) : Enemy :=
  { e with nextStep := place, start := start }

/-- Enemies of given room that differ in the step to take next at most, and in that only if they
have no route. -/
structure Passes (limits : Nat × Nat) (e e' : Enemy) : Prop where
  limits : e.limits = limits
  same : ∃ place, e' = e.withNextStep place
  nextStep : e.route.isSome = true → e' = e

variable {limits : Nat × Nat} {e e' : Enemy}

theorem kinship_passes (limits : Nat × Nat) : Pool.Kinship (Passes limits) where
  left h := ⟨h.limits, ⟨_, rfl⟩, fun _ => rfl⟩
  right h := by
    obtain ⟨hlimits, ⟨place, rfl⟩, -⟩ := h
    exact ⟨hlimits, ⟨place, rfl⟩, fun _ => rfl⟩

/-- What is the same for enemies that pass for each other is the same all along. -/
theorem map_eq_of_passes {β : Type} {items items' : List Enemy}
    (h : List.Forall₂ (Passes limits) items items') {f : Enemy → β}
    (hf : ∀ {e e' : Enemy}, Passes limits e e' → f e' = f e) : items'.map f = items.map f := by
  induction h with
  | nil => rfl
  | cons hpasses _ ih => rw [List.map_cons, List.map_cons, hf hpasses, ih]

/-- The enemy without a next step where it has no route to take it on. -/
def shown (e : Enemy) : Enemy :=
  if e.route.isSome then e else e.withNextStep 0

theorem Passes.shown (h : Passes limits e e') : e'.shown = e.shown := by
  by_cases hroute : e.route.isSome = true
  · rw [h.nextStep hroute]
  · obtain ⟨place, rfl⟩ := h.same
    exact (if_neg hroute).trans (if_neg hroute).symm

namespace Passes

/-- A change that takes no notice of the next step, and leaves alone the room and whether there is
a route. -/
theorem change (h : Passes limits e e') {f : Enemy → Enemy}
    (hf : ∀ place, f (e.withNextStep place) = (f e).withNextStep place)
    (hlimits : (f e).limits = e.limits) (hroute : (f e).route = e.route) :
    Passes limits (f e) (f e') := by
  obtain ⟨hroom, ⟨place, rfl⟩, hnext⟩ := h
  exact ⟨hlimits.trans hroom, ⟨place, hf place⟩, fun hsome => by rw [hnext (hroute ▸ hsome)]⟩

theorem ite (p : Prop) [Decidable p] {f f' : Enemy} (he : Passes limits e e')
    (hf : Passes limits f f') :
    Passes limits (if p then e else f) (if p then e' else f') := by
  split
  · exact he
  · exact hf

end Passes

/-! ### Legs -/

section SetOut

variable (e : Enemy) (target : Vec2) (count : Int) (beats : Nat) (timing : LegTiming)

theorem setOut_withNextStep (place : Nat) :
    (e.withNextStep place).setOut target count beats timing =
      (e.setOut target count beats timing).withNextStep place := by
  simp only [setOut, withNextStep]
  split <;> rfl

/-- A leg that takes time writes where it begins. -/
theorem setOut_withStart (hbeats : 0 < beats) (place : Vec2) :
    (e.withStart place).setOut target count beats timing = e.setOut target count beats timing := by
  rw [setOut, setOut, if_neg (Nat.ne_of_gt hbeats), if_neg (Nat.ne_of_gt hbeats)]
  rfl

/-- A jump does not. -/
theorem setOut_withStart_of_jump (place : Vec2) :
    (e.withStart place).setOut target count 0 timing =
      (e.setOut target count 0 timing).withStart place := by
  rw [setOut, setOut, if_pos rfl, if_pos rfl]
  rfl

end SetOut

theorem Passes.takeStep (h : Passes limits e e') (timing : LegTiming) :
    Passes limits (e.takeStep timing) (e'.takeStep timing) := by
  cases hroute : e.route with
  | some steps =>
    rw [h.nextStep (by rw [hroute]; rfl)]
    exact ⟨(e.takeStep_limits timing).trans h.limits, ⟨_, rfl⟩, fun _ => rfl⟩
  | none =>
    -- without a route there is no step to look up, whatever its place
    refine h.change (f := (Enemy.takeStep · timing)) (fun place => ?_) (e.takeStep_limits timing)
      (e.takeStep_route timing)
    have hnone : ∀ e : Enemy, e.route = none → e.route.bind (·[e.nextStep]?) = none :=
      fun e he => by rw [he, Option.bind_none]
    have hexit : (e.withNextStep place).onExit = e.onExit.withNextStep place := rfl
    rw [takeStep_none (hnone e hroute), takeStep_none (hnone (e.withNextStep place) hroute), hexit]
    exact setOut_withNextStep _ _ _ _ _ place

theorem Passes.onBeat (h : Passes limits e e') (timing : LegTiming) :
    Passes limits (e.onBeat timing) (e'.onBeat timing) := by
  have hheard : Passes limits e.emittersHear e'.emittersHear := h.change (fun _ => rfl) rfl rfl
  have hcounted : Passes limits e.emittersHear.countBeat e'.emittersHear.countBeat :=
    hheard.change (fun _ => rfl) rfl rfl
  have hdeaf : e'.deafToBeats = e.deafToBeats := by
    obtain ⟨place, rfl⟩ := h.same
    rfl
  have hbeats : e'.countBeat.beatsToGo = e.countBeat.beatsToGo := by
    obtain ⟨place, rfl⟩ := h.same
    rfl
  rw [onBeat_eq, onBeat_eq, hdeaf, hbeats]
  exact .ite _ hheard (.ite _ hcounted (hcounted.takeStep timing))

theorem Passes.onUnpause (h : Passes limits e e') (lost : Float) :
    Passes limits (e.onUnpause lost) (e'.onUnpause lost) :=
  h.change (f := (Enemy.onUnpause · lost)) (fun _ => rfl) rfl rfl

theorem Passes.takeDamage (h : Passes limits e e') (damage : Float32) :
    Passes limits (e.takeDamage damage).2 (e'.takeDamage damage).2 :=
  h.change (f := fun e => (e.takeDamage damage).2) (fun _ => rfl) rfl rfl

/-! ### Ticks -/

section Fire

variable {σ : Type} [FireContext σ]

theorem startBurst_withLeg (e : Enemy) (place : Nat) (start : Vec2) (ctx : σ) :
    (e.withLeg place start).startBurst ctx =
      ((e.startBurst ctx).1.withLeg place start, (e.startBurst ctx).2) := by
  have hfields : (e.withLeg place start).emitters = e.emitters ∧
      (e.withLeg place start).position = e.position := ⟨rfl, rfl⟩
  rw [startBurst_eq, startBurst_eq, hfields.1, hfields.2]
  rfl

theorem endBurst_withLeg (e : Enemy) (place : Nat) (start : Vec2) (ctx : σ) :
    (e.withLeg place start).endBurst ctx =
      ((e.endBurst ctx).1.withLeg place start, (e.endBurst ctx).2) := by
  cases hleft : e.burstsLeft with
  | none =>
    rw [endBurst_none hleft, endBurst_none (e := e.withLeg place start) hleft]
    exact startBurst_withLeg { e with firing := false } place start ctx
  | some left =>
    rw [endBurst_some hleft, endBurst_some (e := e.withLeg place start) hleft]
    split
    · rfl
    · exact startBurst_withLeg { e with firing := false, burstsLeft := some (left - 1) } place start
        ctx

theorem runEmitters_withLeg (e : Enemy) (place : Nat) (start : Vec2) (ctx : σ) :
    (e.withLeg place start).runEmitters ctx =
      ((e.runEmitters ctx).1.withLeg place start, (e.runEmitters ctx).2) := by
  have hfields : (e.withLeg place start).rearm = e.rearm ∧
      (e.withLeg place start).emitters = e.emitters ∧
      (e.withLeg place start).position = e.position := ⟨rfl, rfl, rfl⟩
  rw [runEmitters_eq, runEmitters_eq, hfields.1, hfields.2.1, hfields.2.2]
  split_ifs
  · exact startBurst_withLeg { e with rearm := false } place start ctx
  · rfl
  · exact endBurst_withLeg
      { e with emitters := (Emitter.tickAll e.emitters e.position ctx).2.1 } place start _

/-- A tick looks up where the leg began only if it comes before the end of the leg. -/
theorem tick_withLeg (e : Enemy) (place : Nat) {start : Vec2} {now : Float}
    (hstart : start = e.start ∨ ¬ now < e.destinationTime) (cutoff : Float32) (ctx : σ) :
    (e.withLeg place start).tick now cutoff ctx =
      ((e.tick now cutoff ctx).1, (e.tick now cutoff ctx).2.1.withLeg place start,
        (e.tick now cutoff ctx).2.2) := by
  have hmoved : (e.withLeg place start).moved now = (e.moved now).withLeg place start := by
    rcases hstart with rfl | hcame
    · rfl
    · have hthere : (e.withLeg place start).destinationTime = e.destinationTime := rfl
      rw [moved, moved, hthere, if_neg hcame, if_neg hcame]
      rfl
  have hplace : ((e.moved now).withLeg place start).position = (e.moved now).position := rfl
  have hfields : (e.withLeg place start).holdingFire = e.holdingFire ∧
      (e.withLeg place start).exiting = e.exiting ∧
      (e.withLeg place start).destinationTime = e.destinationTime := ⟨rfl, rfl, rfl⟩
  rw [tick_eq, tick_eq, hmoved, hplace, hfields.1, hfields.2.1, hfields.2.2]
  split_ifs
  · rfl
  · rfl
  · exact congrArg (Prod.mk true) (runEmitters_withLeg (e.moved now) place start ctx)

/-- Between beats neither of the two changes. -/
theorem withLeg_tick (e : Enemy) (now : Float) (cutoff : Float32) (ctx : σ) :
    (e.tick now cutoff ctx).2.1.withLeg e.nextStep e.start = (e.tick now cutoff ctx).2.1 := by
  have hstart : e.start = e.start ∨ ¬ now < e.destinationTime := .inl rfl
  have hsame := tick_withLeg e e.nextStep hstart cutoff ctx
  exact (congrArg (·.2.1) hsame).symm

theorem tick_withNextStep (e : Enemy) (place : Nat) (now : Float) (cutoff : Float32) (ctx : σ) :
    (e.withNextStep place).tick now cutoff ctx =
      ((e.tick now cutoff ctx).1, (e.tick now cutoff ctx).2.1.withNextStep place,
        (e.tick now cutoff ctx).2.2) := by
  have hstart : e.start = e.start ∨ ¬ now < e.destinationTime := .inl rfl
  have htick := tick_withLeg e place hstart cutoff ctx
  rw [← withLeg_tick e now cutoff ctx]
  exact htick

/-- A tick that comes when the leg is over. -/
theorem tick_withStart (e : Enemy) (place : Vec2) {now : Float}
    (hcame : ¬ now < e.destinationTime) (cutoff : Float32) (ctx : σ) :
    (e.withStart place).tick now cutoff ctx =
      ((e.tick now cutoff ctx).1, (e.tick now cutoff ctx).2.1.withStart place,
        (e.tick now cutoff ctx).2.2) := by
  have hstart : place = e.start ∨ ¬ now < e.destinationTime := .inr hcame
  have htick := tick_withLeg e e.nextStep hstart cutoff ctx
  rw [← withLeg_tick e now cutoff ctx]
  exact htick

variable {σ' : Type} [FireContext σ'] {R : σ → σ' → Prop} {c : σ} {c' : σ'}

/-- **One tick** of enemies that pass for the same, in contexts that aim and draw alike. -/
theorem Passes.tick (h : Passes limits e e') (hR : FireContext.Alike R) (hc : R c c')
    (now : Float) (cutoff : Float32) :
    (e'.tick now cutoff c').1 = (e.tick now cutoff c).1 ∧
      Passes limits (e.tick now cutoff c).2.1 (e'.tick now cutoff c').2.1 ∧
      R (e.tick now cutoff c).2.2 (e'.tick now cutoff c').2.2 := by
  obtain ⟨d', htick, hd⟩ := Enemy.tick_alike hR hc e now cutoff
  have hbearing := e.tick_bearing now cutoff c
  have hlimits : (e.tick now cutoff c).2.1.limits = e.limits := congrArg Bearing.limits hbearing
  have hroute : (e.tick now cutoff c).2.1.route = e.route := congrArg Bearing.route hbearing
  have hticked : Passes limits (e.tick now cutoff c).2.1 (e'.tick now cutoff c').2.1 := by
    obtain ⟨hroom, ⟨place, rfl⟩, hnext⟩ := h
    refine ⟨hlimits.trans hroom, ⟨place, ?_⟩, fun hsome => ?_⟩
    · rw [tick_withNextStep, htick]
    · rw [hnext (hroute ▸ hsome), htick]
  obtain ⟨place, rfl⟩ := h.same
  refine ⟨?_, hticked, ?_⟩
  · rw [tick_withNextStep, htick]
  · rw [tick_withNextStep, htick]
    exact hd

end Fire

/-! ### Where a leg began -/

/-- The beats of the leg that an enemy sets out on next; none for a jump. -/
def nextLeg (e : Enemy) (timing : LegTiming) : Nat :=
  (e.route.bind (·[e.nextStep]?)).elim timing.exitBeats (·.beats)

/-- Wherever its leg began, an enemy sets out in the same way for the same target. -/
theorem exists_takeStep_eq (e : Enemy) (timing : LegTiming) :
    ∃ (ready : Enemy) (target : Vec2) (count : Int), ∀ place,
      (e.withStart place).takeStep timing =
        (ready.withStart place).setOut target count (e.nextLeg timing) timing := by
  cases hstep : e.route.bind (·[e.nextStep]?) with
  | none =>
    rw [nextLeg, hstep]
    exact ⟨e.onExit, ⟨e.position.x, -Playfield.entryHeight⟩, Int.bmod timing.exitBeats 0x100000000,
      fun place => takeStep_none (e := e.withStart place) hstep timing⟩
  | some step =>
    rw [nextLeg, hstep]
    exact ⟨e.onStep step,
      if e.mirrored then ⟨-step.target.x, step.target.y⟩ else step.target,
      Int.bmod step.beats 0x100000000,
      fun place => takeStep_some (e := e.withStart place) hstep timing⟩

theorem takeStep_withStart_of_pos {e : Enemy} {timing : LegTiming} (h : 0 < e.nextLeg timing)
    (place : Vec2) : (e.withStart place).takeStep timing = e.takeStep timing := by
  obtain ⟨ready, target, count, heq⟩ := e.exists_takeStep_eq timing
  have hhere : e.takeStep timing =
      (ready.withStart e.start).setOut target count (e.nextLeg timing) timing := heq e.start
  rw [heq, hhere, setOut_withStart _ _ _ _ _ h, setOut_withStart _ _ _ _ _ h]

theorem takeStep_withStart_of_jump {e : Enemy} {timing : LegTiming} (h : e.nextLeg timing = 0)
    (place : Vec2) :
    (e.withStart place).takeStep timing = (e.takeStep timing).withStart place := by
  obtain ⟨ready, target, count, heq⟩ := e.exists_takeStep_eq timing
  have hhere : e.takeStep timing =
      (ready.withStart e.start).setOut target count (e.nextLeg timing) timing := heq e.start
  rw [heq, hhere, h, setOut_withStart_of_jump, setOut_withStart_of_jump]
  rfl

/-- The beats of the leg that an enemy enters on. -/
theorem nextLeg_entered (e : Enemy) (s : EnemySpawn) (timing : LegTiming) :
    (e.entered s timing).nextLeg timing =
      (s.route.bind fun r => r.steps[r.start]?).elim timing.exitBeats (·.beats) := by
  rw [nextLeg, entered]
  cases s.route <;> rfl

/-- **An enemy that comes on screen** has nothing from the one whose slot it takes but where a leg
of that one began. -/
theorem passes_spawn_of_start (he : e.limits = limits) (he' : e'.limits = limits)
    (hstart : e'.start = e.start) (s : EnemySpawn) (timing : LegTiming) :
    Passes limits (e.spawn s timing) (e'.spawn s timing) := by
  obtain ⟨hemitters, hdepth⟩ := Prod.mk.inj (he'.trans he.symm)
  have hentered : Passes limits (e.entered s timing) (e'.entered s timing) := by
    refine ⟨he, ⟨(e'.entered s timing).nextStep, ?_⟩, fun hsome => ?_⟩
    · simp only [entered, withNextStep, hemitters, hdepth, hstart]
    · obtain ⟨route, hroute⟩ : ∃ route, s.route = some route := by
        simpa [entered, Option.isSome_iff_exists] using hsome
      simp only [entered, hemitters, hdepth, hstart, hroute, Option.map_some, Option.getD_some]
  rw [spawn_eq, spawn_eq]
  exact hentered.takeStep timing

/-- Nothing at all, if its first leg takes time. -/
theorem spawn_withStart_of_pos {s : EnemySpawn} {timing : LegTiming}
    (h : 0 < (e.entered s timing).nextLeg timing) (place : Vec2) :
    (e.withStart place).spawn s timing = e.spawn s timing := by
  rw [spawn_eq, spawn_eq]
  exact takeStep_withStart_of_pos h place

/-- If its first leg is a jump, where that leg began is still to be found in the slot. -/
theorem spawn_withStart_of_jump {s : EnemySpawn} {timing : LegTiming}
    (h : (e.entered s timing).nextLeg timing = 0) (place : Vec2) :
    (e.withStart place).spawn s timing = (e.spawn s timing).withStart place := by
  rw [spawn_eq, spawn_eq]
  exact takeStep_withStart_of_jump h place

/-- **An enemy that comes on screen** has nothing from the one whose slot it takes, if all its legs
take time. -/
theorem passes_spawn (he : e.limits = limits) (he' : e'.limits = limits) {s : EnemySpawn}
    {timing : LegTiming} (hexit : 0 < timing.exitBeats)
    (hsteps : ∀ route, s.route = some route → ∀ step ∈ route.steps, 0 < step.beats) :
    Passes limits (e.spawn s timing) (e'.spawn s timing) := by
  have hfirst : 0 < (e'.entered s timing).nextLeg timing := by
    rw [nextLeg_entered]
    cases hstep : s.route.bind fun r => r.steps[r.start]? with
    | none => exact hexit
    | some step =>
      obtain ⟨route, hroute, hget⟩ := Option.bind_eq_some_iff.mp hstep
      exact hsteps route hroute step (List.mem_of_getElem? hget)
  have hlimits : (e'.withStart e.start).limits = limits := he'
  have hpasses := passes_spawn_of_start he hlimits rfl s timing
  rwa [spawn_withStart_of_pos hfirst] at hpasses

end Enemy

/-! ### The player -/

namespace Player

@[simp]
theorem limits_load (p : Player) (specs : List EmitterSpec) : (p.load specs).limits = p.limits := by
  simp only [load]
  split <;> rfl

@[simp]
theorem limits_hit (p : Player) (settings : PlayerSettings) :
    (p.hit settings).2.limits = p.limits := by
  simp only [hit]
  split
  · rfl
  · split
    · rfl
    · split <;> rfl

@[simp]
theorem limits_grant (p : Player) (orb : Orb) (settings : PlayerSettings) :
    (p.grant orb settings).limits = p.limits := by
  cases orb <;> rfl

/-- A player of given limits is as good as new after a reset. -/
theorem reset_eq {p p' : Player} (h : p'.limits = p.limits) (settings : PlayerSettings) :
    p'.reset settings = p.reset settings := by
  obtain ⟨hemitters, hdepth⟩ := Prod.mk.inj h
  rw [reset, reset, hemitters, hdepth]

end Player

end BulletHell

