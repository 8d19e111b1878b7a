import BulletHell.Pattern.Group
import BulletHell.Proofs.Pattern.Cycle

/-!
# What emitters do to their surroundings

An emitter changes its surroundings in two ways only: it draws random angles and asks for shots.
Which shots it may ask for can be read off before it runs: the one it has now, and those its
program changes to. So whatever holds between the surroundings before and after each such request,
and goes on from one to the next, holds of a tick, of a group and of a fire gate.

## Main definitions

* `Emitter.Fires` — all shots that the emitter may ever ask for are of a given kind
* `FireContext.Course` — a relation that goes on over draws and over requests of that kind

## Main results

* `Emitter.tick_course`, `Emitter.restart_course` — one emitter
* `Emitter.actAll_course`, `FireGate.tick_course` — groups and gates
-/

namespace BulletHell

/-- The shot that an emitter starts with and all that its program changes to are of a kind. -/
structure EmitterSpec.Fires (S : ShotId → Prop) (spec : EmitterSpec) : Prop where
  shot : S spec.shot
  program : ∀ id, .setShot id ∈ spec.program.instructions → S id

/-- All shots that the emitter may ever ask for are of a kind. -/
structure Emitter.Fires (S : ShotId → Prop) (e : Emitter) : Prop where
  shot : S e.shot
  program : ∀ id, .setShot id ∈ e.program.instructions → S id

/-- A relation between surroundings that goes on over random draws, and over requests for shots of
a kind. -/
structure FireContext.Course {σ : Type} [FireContext σ] (S : ShotId → Prop) (R : σ → σ → Prop) :
    Prop where
  refl : ∀ c, R c c
  trans : ∀ {a b c : σ}, R a b → R b c → R a c
  random : ∀ c spread, R c (FireContext.randomSpread c spread).2
  spawn : ∀ c {request : ShotRequest}, S request.shot → R c (FireContext.spawnShot c request).2

/-- Where nothing is asked of the contexts, every action is on course. -/
theorem FireContext.Course.top {σ : Type} [FireContext σ] (S : ShotId → Prop) :
    Course S fun _ _ : σ => True :=
  ⟨fun _ => trivial, fun _ _ => trivial, fun _ _ => trivial, fun _ _ _ => trivial⟩

variable {σ : Type} {S : ShotId → Prop} {R : σ → σ → Prop}

/-- All emitters of a group are of a kind. -/
def Emitter.AllFire (S : ShotId → Prop) (es : List Emitter) : Prop :=
  ∀ e ∈ es, e.Fires S

namespace Emitter

theorem fires_ofSpec {spec : EmitterSpec} (h : spec.Fires S) (maxDepth : Nat) (mirrored : Bool) :
    (ofSpec maxDepth mirrored spec).Fires S :=
  ⟨h.shot, h.program⟩

theorem allFire_map_ofSpec {specs : List EmitterSpec} (h : ∀ spec ∈ specs, spec.Fires S)
    (maxDepth : Nat) (mirrored : Bool) (room : Nat) :
    AllFire S ((specs.take room).map (ofSpec maxDepth mirrored)) := by
  intro e he
  obtain ⟨spec, hspec, rfl⟩ := List.mem_map.mp he
  exact fires_ofSpec (h spec (List.mem_of_mem_take hspec)) maxDepth mirrored

/-- Where no shot is ruled out, every emitter is of the kind. -/
theorem allFire_true (es : List Emitter) : AllFire (fun _ => True) es :=
  fun _ _ => ⟨trivial, fun _ _ => trivial⟩

theorem allFire_onBeat {es : List Emitter} (h : AllFire S es) :
    AllFire S (es.map Emitter.onBeat) := by
  intro e he
  obtain ⟨e₀, he₀, rfl⟩ := List.mem_map.mp he
  exact ⟨(h e₀ he₀).shot, (h e₀ he₀).program⟩

/-- A group acts on a course if its emitters do. None is lost. -/
theorem actAll_course {act : Emitter → σ → Bool × Emitter × σ} (hrefl : ∀ c, R c c)
    (htrans : ∀ {a b c : σ}, R a b → R b c → R a c)
    (hact : ∀ e, e.Fires S → ∀ c, (act e c).2.1.Fires S ∧ R c (act e c).2.2)
    {es : List Emitter} (h : AllFire S es) (c : σ) :
    AllFire S (actAll act es c).2.1 ∧ (actAll act es c).2.1.length = es.length ∧
      R c (actAll act es c).2.2 := by
  induction es generalizing c with
  | nil => exact ⟨h, rfl, hrefl c⟩
  | cons e rest ih =>
    obtain ⟨hfires, hfirst⟩ := hact e (h e List.mem_cons_self) c
    obtain ⟨hothers, hlen, hlater⟩ :=
      ih (fun e he => h e (List.mem_cons_of_mem _ he)) (act e c).2.2
    refine ⟨fun e' he' => ?_, congrArg (· + 1) hlen, htrans hfirst hlater⟩
    rcases List.mem_cons.mp he' with rfl | hin
    · exact hfires
    · exact hothers e' hin

variable [FireContext σ]

theorem aim_course (hR : FireContext.Course S R) (e : Emitter) (origin : Vec2) (c : σ) :
    R c (e.aim origin c).2 := by
  cases hmode : e.mode with
  | static =>
    simp only [aim, hmode]
    exact hR.refl c
  | aimed =>
    simp only [aim, hmode]
    exact hR.refl c
  | random =>
    simp only [aim, hmode]
    exact hR.random c e.angleOffset

theorem fire_course (hR : FireContext.Course S R) {e : Emitter} (h : e.Fires S) (origin : Vec2)
    (c : σ) : (e.fire origin c).1.Fires S ∧ R c (e.fire origin c).2 :=
  ⟨⟨h.shot, h.program⟩, hR.trans (e.aim_course hR origin c) (hR.spawn _ h.shot)⟩

/-- What leaves the shot and the program alone. -/
theorem Fires.of_eq {e e' : Emitter} (h : e.Fires S) (hshot : e'.shot = e.shot)
    (hprogram : e'.program = e.program) : e'.Fires S :=
  ⟨hshot ▸ h.shot, hprogram ▸ h.program⟩

theorem Fires.repeatEnd {e : Emitter} (h : e.Fires S) : e.repeatEnd.Fires S := by
  obtain ⟨repeats, counter, heq⟩ := e.exists_repeatEnd_eq
  rw [heq]
  exact h.of_eq rfl rfl

theorem Fires.endOfProgram {e : Emitter} (h : e.Fires S) : e.endOfProgram.2.Fires S := by
  obtain ⟨repeats, counter, heq⟩ := e.exists_endOfProgram_eq
  rw [heq]
  exact h.of_eq rfl rfl

theorem Fires.setMode {e : Emitter} (h : e.Fires S) (mode : FireMode) :
    (e.setMode mode).Fires S := by
  obtain ⟨offset, heq⟩ := e.exists_setMode_eq mode
  rw [heq]
  exact h.of_eq rfl rfl

theorem execute_course (hR : FireContext.Course S R) {e : Emitter} (h : e.Fires S)
    (origin : Vec2) (c : σ) {op : Instruction} (hop : op ∈ e.program.instructions) :
    (e.execute origin c op).2.1.Fires S ∧ R c (e.execute origin c op).2.2 := by
  cases op with
  | fire =>
    obtain ⟨hfires, hcourse⟩ := fire_course hR h origin c
    exact ⟨hfires.of_eq rfl rfl, hcourse⟩
  | setShot shot => exact ⟨⟨h.program shot hop, h.program⟩, hR.refl c⟩
  | setMode mode => exact ⟨(h.setMode mode).of_eq rfl rfl, hR.refl c⟩
  | repeatEnd => exact ⟨h.repeatEnd, hR.refl c⟩
  | _ => exact ⟨h.of_eq rfl rfl, hR.refl c⟩

theorem cycle_course (hR : FireContext.Course S R) {e : Emitter} (h : e.Fires S) (origin : Vec2)
    (c : σ) : (e.cycle origin c).2.1.Fires S ∧ R c (e.cycle origin c).2.2 := by
  cases hfetch : e.program.fetch? e.counter with
  | none =>
    simp only [cycle, hfetch]
    exact ⟨h.endOfProgram, hR.refl c⟩
  | some op =>
    simp only [cycle, hfetch]
    exact execute_course hR h origin c (List.mem_of_getElem? hfetch)

/-- Any number of cycles, up to the end of the tick. -/
theorem run_course (hR : FireContext.Course S R) (origin : Vec2) (budget : Nat) {e : Emitter}
    (h : e.Fires S) (c : σ) :
    (run origin budget e c).2.1.Fires S ∧ R c (run origin budget e c).2.2 := by
  induction budget generalizing e c with
  | zero => exact ⟨h, hR.refl c⟩
  | succ budget ih =>
    obtain ⟨hfires, hcycle⟩ := cycle_course hR h origin c
    rcases hfirst : e.cycle origin c with ⟨flow, e', d⟩
    rw [hfirst] at hfires hcycle
    simp only [run, hfirst]
    cases flow with
    | running =>
      obtain ⟨hlast, hlater⟩ := ih hfires d
      exact ⟨hlast, hR.trans hcycle hlater⟩
    | yielded => exact ⟨hfires, hcycle⟩
    | ended => exact ⟨hfires, hcycle⟩

/-- **One tick of an emitter.** -/
theorem tick_course (hR : FireContext.Course S R) (owner : Vec2) (e : Emitter) (h : e.Fires S)
    (c : σ) : (e.tick owner c).2.1.Fires S ∧ R c (e.tick owner c).2.2 := by
  have hwaited : Fires S { e with waitFrames := e.waitFrames - 1 } := h.of_eq rfl rfl
  simp only [tick]
  split
  · exact ⟨h, hR.refl c⟩
  · split
    · exact ⟨hwaited, hR.refl c⟩
    · exact run_course hR _ _ hwaited c

theorem restart_course (hR : FireContext.Course S R) (owner : Vec2) (e : Emitter)
    (h : e.Fires S) (c : σ) :
    (e.restart owner c).2.1.Fires S ∧ R c (e.restart owner c).2.2 :=
  tick_course hR owner e.rewind (h.of_eq rfl rfl) c

/-! ### Groups -/

theorem tickAll_course (hR : FireContext.Course S R) {es : List Emitter} (h : AllFire S es)
    (owner : Vec2) (c : σ) :
    AllFire S (tickAll es owner c).2.1 ∧ (tickAll es owner c).2.1.length = es.length ∧
      R c (tickAll es owner c).2.2 :=
  actAll_course hR.refl hR.trans (tick_course hR owner) h c

theorem restartAll_course (hR : FireContext.Course S R) {es : List Emitter} (h : AllFire S es)
    (owner : Vec2) (c : σ) :
    AllFire S (restartAll es owner c).2.1 ∧ (restartAll es owner c).2.1.length = es.length ∧
      R c (restartAll es owner c).2.2 :=
  actAll_course hR.refl hR.trans (restart_course hR owner) h c

end Emitter

namespace FireGate

variable [FireContext σ]

theorem startBurst_course (hR : FireContext.Course S R) {g : FireGate}
    (h : Emitter.AllFire S g.emitters) (owner : Vec2) (c : σ) :
    Emitter.AllFire S (g.startBurst owner c).1.emitters ∧
      (g.startBurst owner c).1.emitters.length = g.emitters.length ∧
      R c (g.startBurst owner c).2 := by
  simp only [startBurst]
  split
  · exact ⟨h, rfl, hR.refl c⟩
  · exact Emitter.restartAll_course hR h owner c

/-- **One call of a fire gate.** -/
theorem tick_course (hR : FireContext.Course S R) {g : FireGate}
    (h : Emitter.AllFire S g.emitters) (owner : Vec2) (c : σ) :
    Emitter.AllFire S (g.tick owner c).1.emitters ∧
      (g.tick owner c).1.emitters.length = g.emitters.length ∧ R c (g.tick owner c).2 := by
  simp only [tick]
  split
  · obtain ⟨hfire, hlen, hticked⟩ := Emitter.tickAll_course hR h owner c
    split
    · exact ⟨hfire, hlen, hticked⟩
    · obtain ⟨hlast, hlen', hstarted⟩ := startBurst_course hR
        (g := { g with frames := g.frames - 1, emitters := (Emitter.tickAll g.emitters owner c).2.1,
                       firing := (Emitter.tickAll g.emitters owner c).1 }) hfire owner
        (Emitter.tickAll g.emitters owner c).2.2
      exact ⟨hlast, hlen'.trans hlen, hR.trans hticked hstarted⟩
  · exact startBurst_course hR (g := { g with frames := g.frames - 1 }) h owner c

end FireGate

end BulletHell
