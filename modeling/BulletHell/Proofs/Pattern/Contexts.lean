import BulletHell.Pattern.Group

/-!
# Emitters in two contexts

An emitter learns two things from its surroundings, the angle to its target and random angles.
Whether there was room for a shot it never looks at. So two contexts that aim alike and draw
alike, now and after every request, take an emitter through the same states, and with it a group
and a fire gate.

## Main definitions

* `FireContext.Alike` — a relation between contexts that these requests keep

## Main results

* `Emitter.run_alike`, `Emitter.tick_alike`, `Emitter.restart_alike`
* `Emitter.actAll_alike`, `FireGate.tick_alike` — groups and gates

## Implementation notes

Each result gives the second run as an equation: it is the first run with another context at
the end. So in a proof about a caller the callee is rewritten, and the rest follows by itself.
-/

namespace BulletHell

variable {σ σ' : Type} {R : σ → σ' → Prop} {c : σ} {c' : σ'}

/-- A group acts alike if its emitters do. -/
theorem Emitter.actAll_alike {act : Emitter → σ → Bool × Emitter × σ}
    {act' : Emitter → σ' → Bool × Emitter × σ'}
    (hact : ∀ {c : σ} {c' : σ'}, R c c' → ∀ e,
      ∃ d', act' e c' = ((act e c).1, (act e c).2.1, d') ∧ R (act e c).2.2 d')
    (h : R c c') (es : List Emitter) :
    ∃ d', actAll act' es c' = ((actAll act es c).1, (actAll act es c).2.1, d') ∧
      R (actAll act es c).2.2 d' := by
  induction es generalizing c c' with
  | nil => exact ⟨c', rfl, h⟩
  | cons e rest ih =>
    obtain ⟨d', he, hd⟩ := hact h e
    obtain ⟨f', hrest, hf⟩ := ih hd
    simp only [actAll, he, hrest]
    exact ⟨f', rfl, hf⟩

variable [FireContext σ] [FireContext σ']

/-- Contexts that are related aim alike and draw alike, and stay related. They may differ on
whether there is room for a shot. -/
structure FireContext.Alike (R : σ → σ' → Prop) : Prop where
  angle : ∀ {c : σ} {c' : σ'}, R c c' → ∀ origin,
    FireContext.angleToTarget c' origin = FireContext.angleToTarget c origin
  random : ∀ {c : σ} {c' : σ'}, R c c' → ∀ spread,
    ∃ d', FireContext.randomSpread c' spread = ((FireContext.randomSpread c spread).1, d') ∧
      R (FireContext.randomSpread c spread).2 d'
  spawn : ∀ {c : σ} {c' : σ'}, R c c' → ∀ request,
    R (FireContext.spawnShot c request).2 (FireContext.spawnShot c' request).2

/-- A context is like itself. -/
theorem FireContext.alike_eq : Alike (Eq : σ → σ → Prop) where
  angle := by
    rintro c - rfl origin
    rfl
  random := by
    rintro c - rfl spread
    exact ⟨_, rfl, rfl⟩
  spawn := by
    rintro c - rfl request
    rfl

namespace Emitter

theorem aim_alike (hR : FireContext.Alike R) (h : R c c') (e : Emitter) (origin : Vec2) :
    ∃ d', e.aim origin c' = ((e.aim origin c).1, d') ∧ R (e.aim origin c).2 d' := by
  cases hmode : e.mode with
  | static =>
    simp only [aim, hmode]
    exact ⟨c', rfl, h⟩
  | aimed =>
    simp only [aim, hmode, hR.angle h]
    exact ⟨c', rfl, h⟩
  | random =>
    obtain ⟨d', hdraw, hd⟩ := hR.random h e.angleOffset
    simp only [aim, hmode, hdraw, hR.angle hd]
    exact ⟨d', rfl, hd⟩

theorem fire_alike (hR : FireContext.Alike R) (h : R c c') (e : Emitter) (origin : Vec2) :
    ∃ d', e.fire origin c' = ((e.fire origin c).1, d') ∧ R (e.fire origin c).2 d' := by
  obtain ⟨d', haim, hd⟩ := e.aim_alike hR h origin
  simp only [fire, haim]
  exact ⟨_, rfl, hR.spawn hd _⟩

theorem execute_alike (hR : FireContext.Alike R) (h : R c c') (e : Emitter) (origin : Vec2)
    (op : Instruction) :
    ∃ d', e.execute origin c' op =
        ((e.execute origin c op).1, (e.execute origin c op).2.1, d') ∧
      R (e.execute origin c op).2.2 d' := by
  cases op with
  | fire =>
    obtain ⟨d', hfire, hd⟩ := e.fire_alike hR h origin
    simp only [execute, hfire]
    exact ⟨d', rfl, hd⟩
  | _ => exact ⟨c', rfl, h⟩

theorem cycle_alike (hR : FireContext.Alike R) (h : R c c') (e : Emitter) (origin : Vec2) :
    ∃ d', e.cycle origin c' = ((e.cycle origin c).1, (e.cycle origin c).2.1, d') ∧
      R (e.cycle origin c).2.2 d' := by
  cases hfetch : e.program.fetch? e.counter with
  | none =>
    simp only [cycle, hfetch]
    exact ⟨c', rfl, h⟩
  | some op =>
    simp only [cycle, hfetch]
    exact e.execute_alike hR h origin op

/-- Any number of cycles, up to the end of the tick. -/
theorem run_alike (hR : FireContext.Alike R) (h : R c c') (origin : Vec2) (budget : Nat)
    (e : Emitter) :
    ∃ d', run origin budget e c' =
        ((run origin budget e c).1, (run origin budget e c).2.1, d') ∧
      R (run origin budget e c).2.2 d' := by
  induction budget generalizing e c c' with
  | zero => exact ⟨c', rfl, h⟩
  | succ budget ih =>
    obtain ⟨d', hcycle, hd⟩ := e.cycle_alike hR h origin
    rcases hfirst : e.cycle origin c with ⟨flow, e', d⟩
    rw [hfirst] at hcycle hd
    simp only [run, hfirst, hcycle]
    cases flow with
    | running => exact ih hd e'
    | yielded => exact ⟨d', rfl, hd⟩
    | ended => exact ⟨d', rfl, hd⟩

theorem tick_alike (hR : FireContext.Alike R) (h : R c c') (e : Emitter) (owner : Vec2) :
    ∃ d', e.tick owner c' = ((e.tick owner c).1, (e.tick owner c).2.1, d') ∧
      R (e.tick owner c).2.2 d' := by
  simp only [tick]
  split
  · exact ⟨c', rfl, h⟩
  · split
    · exact ⟨c', rfl, h⟩
    · exact run_alike hR h _ _ _

theorem restart_alike (hR : FireContext.Alike R) (h : R c c') (e : Emitter) (owner : Vec2) :
    ∃ d', e.restart owner c' = ((e.restart owner c).1, (e.restart owner c).2.1, d') ∧
      R (e.restart owner c).2.2 d' :=
  e.rewind.tick_alike hR h owner

/-! ### Groups -/

theorem tickAll_alike (hR : FireContext.Alike R) (h : R c c') (es : List Emitter)
    (owner : Vec2) :
    ∃ d', tickAll es owner c' = ((tickAll es owner c).1, (tickAll es owner c).2.1, d') ∧
      R (tickAll es owner c).2.2 d' :=
  actAll_alike (R := R) (fun h e => e.tick_alike hR h owner) h es

theorem restartAll_alike (hR : FireContext.Alike R) (h : R c c') (es : List Emitter)
    (owner : Vec2) :
    ∃ d', restartAll es owner c' =
        ((restartAll es owner c).1, (restartAll es owner c).2.1, d') ∧
      R (restartAll es owner c).2.2 d' :=
  actAll_alike (R := R) (fun h e => e.restart_alike hR h owner) h es

end Emitter

namespace FireGate

theorem startBurst_alike (hR : FireContext.Alike R) (h : R c c') (g : FireGate) (owner : Vec2) :
    ∃ d', g.startBurst owner c' = ((g.startBurst owner c).1, d') ∧
      R (g.startBurst owner c).2 d' := by
  simp only [startBurst]
  split
  · exact ⟨c', rfl, h⟩
  · obtain ⟨d', hrestart, hd⟩ := Emitter.restartAll_alike hR h g.emitters owner
    rw [hrestart]
    exact ⟨d', rfl, hd⟩

theorem tick_alike (hR : FireContext.Alike R) (h : R c c') (g : FireGate) (owner : Vec2) :
    ∃ d', g.tick owner c' = ((g.tick owner c).1, d') ∧ R (g.tick owner c).2 d' := by
  simp only [tick]
  split
  · obtain ⟨d', htick, hd⟩ := Emitter.tickAll_alike hR h g.emitters owner
    rw [htick]
    simp only
    split
    · exact ⟨d', rfl, hd⟩
    · exact startBurst_alike hR hd _ owner
  · exact startBurst_alike hR h _ owner

end FireGate

end BulletHell
