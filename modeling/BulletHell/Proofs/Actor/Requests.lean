import BulletHell.Proofs.Actor.Contexts
import BulletHell.Proofs.Pattern.Requests

/-!
# What enemies and the player do to their surroundings

Owners of emitters touch their surroundings only through their emitters, and through the revenge
of a killed enemy, which asks for the shots that its emitters have. None of them gains or loses an
emitter on the way.

## Main results

* `Enemy.tick_course`, `Enemy.fireRevenge_course` — an enemy
* `Player.handleFire_course` — the player
-/

namespace BulletHell

variable {σ : Type} [FireContext σ] {S : ShotId → Prop} {R : σ → σ → Prop}

namespace Enemy

/-- An enemy that differs from another one in how its emitters stand, and not in what it is. -/
structure SameKind (e e' : Enemy) : Prop where
  archetype : e'.archetype = e.archetype
  maxEmitters : e'.maxEmitters = e.maxEmitters
  length_emitters : e'.emitters.length = e.emitters.length

theorem SameKind.trans {e e' e'' : Enemy} (h : SameKind e e') (h' : SameKind e' e'') :
    SameKind e e'' :=
  ⟨h'.archetype.trans h.archetype, h'.maxEmitters.trans h.maxEmitters,
    h'.length_emitters.trans h.length_emitters⟩

theorem startBurst_course (hR : FireContext.Course S R) {e : Enemy}
    (h : Emitter.AllFire S e.emitters) (c : σ) :
    Emitter.AllFire S (e.startBurst c).1.emitters ∧ SameKind e (e.startBurst c).1 ∧
      R c (e.startBurst c).2 := by
  obtain ⟨hfire, hlen, hcourse⟩ := Emitter.restartAll_course hR h e.position c
  exact ⟨hfire, ⟨rfl, rfl, hlen⟩, hcourse⟩

theorem endBurst_course (hR : FireContext.Course S R) {e : Enemy}
    (h : Emitter.AllFire S e.emitters) (c : σ) :
    Emitter.AllFire S (e.endBurst c).1.emitters ∧ SameKind e (e.endBurst c).1 ∧
      R c (e.endBurst c).2 := by
  simp only [endBurst]
  split
  · obtain ⟨hfire, hkind, hcourse⟩ := startBurst_course hR (e := { e with firing := false }) h c
    exact ⟨hfire, ⟨hkind.archetype, hkind.maxEmitters, hkind.length_emitters⟩, hcourse⟩
  · next left _ =>
    split
    · exact ⟨h, ⟨rfl, rfl, rfl⟩, hR.refl c⟩
    · obtain ⟨hfire, hkind, hcourse⟩ :=
        startBurst_course hR (e := { e with firing := false, burstsLeft := some (left - 1) }) h c
      exact ⟨hfire, ⟨hkind.archetype, hkind.maxEmitters, hkind.length_emitters⟩, hcourse⟩

theorem runEmitters_course (hR : FireContext.Course S R) {e : Enemy}
    (h : Emitter.AllFire S e.emitters) (c : σ) :
    Emitter.AllFire S (e.runEmitters c).1.emitters ∧ SameKind e (e.runEmitters c).1 ∧
      R c (e.runEmitters c).2 := by
  simp only [runEmitters]
  split
  · obtain ⟨hfire, hkind, hcourse⟩ := startBurst_course hR (e := { e with rearm := false }) h c
    exact ⟨hfire, ⟨hkind.archetype, hkind.maxEmitters, hkind.length_emitters⟩, hcourse⟩
  · obtain ⟨hfire, hlen, hticked⟩ := Emitter.tickAll_course hR h e.position c
    split
    · exact ⟨hfire, ⟨rfl, rfl, hlen⟩, hticked⟩
    · have hticks : SameKind e
          { e with emitters := (Emitter.tickAll e.emitters e.position c).2.1 } := ⟨rfl, rfl, hlen⟩
      obtain ⟨hlast, hkind, hended⟩ := endBurst_course hR
        (e := { e with emitters := (Emitter.tickAll e.emitters e.position c).2.1 }) hfire
        (Emitter.tickAll e.emitters e.position c).2.2
      exact ⟨hlast, hticks.trans hkind, hR.trans hticked hended⟩

/-- **One tick of an enemy.** -/
theorem tick_course (hR : FireContext.Course S R) {e : Enemy}
    (h : Emitter.AllFire S e.emitters) (now : Float) (cutoff : Float32) (c : σ) :
    Emitter.AllFire S (e.tick now cutoff c).2.1.emitters ∧
      SameKind e (e.tick now cutoff c).2.1 ∧ R c (e.tick now cutoff c).2.2 := by
  rw [tick_eq]
  split
  · exact ⟨h, ⟨rfl, rfl, rfl⟩, hR.refl c⟩
  · split
    · exact ⟨h, ⟨rfl, rfl, rfl⟩, hR.refl c⟩
    · obtain ⟨hfire, hkind, hcourse⟩ := runEmitters_course hR (e := e.moved now) h c
      exact ⟨hfire, ⟨hkind.archetype, hkind.maxEmitters, hkind.length_emitters⟩, hcourse⟩

theorem fireRevenge_course (hR : FireContext.Course S R) {e : Enemy}
    (h : Emitter.AllFire S e.emitters) (c : σ) : R c (e.fireRevenge c) := by
  rw [fireRevenge]
  generalize e.emitters = es at h
  induction es generalizing c with
  | nil => exact hR.refl c
  | cons emitter rest ih =>
    have hfirst : R c (FireContext.spawnShot c (e.revengeRequest emitter c)).2 :=
      hR.spawn c (h emitter List.mem_cons_self).shot
    exact hR.trans hfirst (ih _ fun em hem => h em (List.mem_cons_of_mem _ hem))

end Enemy

theorem Player.handleFire_course (hR : FireContext.Course S R) {p : Player}
    (h : Emitter.AllFire S p.emitters) (fire : Bool) (settings : PlayerSettings) (c : σ) :
    Emitter.AllFire S (p.handleFire fire settings c).1.emitters ∧
      (p.handleFire fire settings c).1.emitters.length = p.emitters.length ∧
      R c (p.handleFire fire settings c).2 := by
  cases fire with
  | true =>
    exact FireGate.tick_course hR (g := { p.gate with frames := settings.fireBufferFrames }) h
      p.position c
  | false => exact FireGate.tick_course hR (g := p.gate) h p.position c

end BulletHell
