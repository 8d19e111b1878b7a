import BulletHell.Actor.Enemy
import BulletHell.Actor.Player
import BulletHell.Proofs.Pattern.Contexts

/-!
# Owners of emitters in two contexts

Enemies and the player fire through their emitters and decide by whether these still run, never
by whether a shot found room. In contexts that aim and draw alike they go through the same
states.

## Main results

* `Enemy.tick_alike`, `Enemy.fireRevenge_alike` — an enemy
* `Player.handleFire_alike` — the player
-/

namespace BulletHell

variable {σ σ' : Type} [FireContext σ] [FireContext σ'] {R : σ → σ' → Prop} {c : σ} {c' : σ'}

namespace Enemy

theorem startBurst_alike (hR : FireContext.Alike R) (h : R c c') (e : Enemy) :
    ∃ d', e.startBurst c' = ((e.startBurst c).1, d') ∧ R (e.startBurst c).2 d' := by
  obtain ⟨d', hrestart, hd⟩ := Emitter.restartAll_alike hR h e.emitters e.position
  simp only [startBurst, hrestart]
  exact ⟨d', rfl, hd⟩

theorem endBurst_alike (hR : FireContext.Alike R) (h : R c c') (e : Enemy) :
    ∃ d', e.endBurst c' = ((e.endBurst c).1, d') ∧ R (e.endBurst c).2 d' := by
  simp only [endBurst]
  split
  · exact startBurst_alike hR h _
  · split
    · exact ⟨c', rfl, h⟩
    · exact startBurst_alike hR h _

theorem runEmitters_alike (hR : FireContext.Alike R) (h : R c c') (e : Enemy) :
    ∃ d', e.runEmitters c' = ((e.runEmitters c).1, d') ∧ R (e.runEmitters c).2 d' := by
  simp only [runEmitters]
  split
  · exact startBurst_alike hR h _
  · obtain ⟨d', htick, hd⟩ := Emitter.tickAll_alike hR h e.emitters e.position
    simp only [htick]
    split
    · exact ⟨d', rfl, hd⟩
    · exact endBurst_alike hR hd _

/-- The enemy at its place on the leg. -/
def moved (e : Enemy) (now : Float) : Enemy :=
  { e with position := if now < e.destinationTime then e.pointOnLeg now else e.destination }

theorem tick_eq (e : Enemy) (now : Float) (cutoff : Float32) (c : σ) :
    e.tick now cutoff c =
      if (!decide (now < e.destinationTime) && e.exiting) ||
          outOfBounds (e.moved now).position Playfield.retireMargin then
        (false, e.moved now, c)
      else if (e.moved now).position.y < cutoff || e.holdingFire then (true, e.moved now, c)
      else (true, (e.moved now).runEmitters c) :=
  rfl

/-- **One tick of an enemy.** -/
theorem tick_alike (hR : FireContext.Alike R) (h : R c c') (e : Enemy) (now : Float)
    (cutoff : Float32) :
    ∃ d', e.tick now cutoff c' = ((e.tick now cutoff c).1, (e.tick now cutoff c).2.1, d') ∧
      R (e.tick now cutoff c).2.2 d' := by
  rw [tick_eq, tick_eq]
  split
  · exact ⟨c', rfl, h⟩
  · split
    · exact ⟨c', rfl, h⟩
    · obtain ⟨d', hrun, hd⟩ := runEmitters_alike hR h (e.moved now)
      rw [hrun]
      exact ⟨d', rfl, hd⟩

theorem fireRevenge_alike (hR : FireContext.Alike R) (h : R c c') (e : Enemy) :
    R (e.fireRevenge c) (e.fireRevenge c') := by
  simp only [fireRevenge]
  generalize e.emitters = es
  induction es generalizing c c' with
  | nil => exact h
  | cons emitter rest ih =>
    have hrequest : e.revengeRequest emitter c' = e.revengeRequest emitter c := by
      simp only [revengeRequest, hR.angle h]
    rw [List.foldl_cons, List.foldl_cons, hrequest]
    exact ih (hR.spawn h _)

end Enemy

theorem Player.handleFire_alike (hR : FireContext.Alike R) (h : R c c') (p : Player)
    (fire : Bool) (settings : PlayerSettings) :
    ∃ d', p.handleFire fire settings c' = ((p.handleFire fire settings c).1, d') ∧
      R (p.handleFire fire settings c).2 d' := by
  obtain ⟨d', htick, hd⟩ := FireGate.tick_alike hR h
    (if fire then { p.gate with frames := settings.fireBufferFrames } else p.gate) p.position
  simp only [handleFire, htick]
  exact ⟨d', rfl, hd⟩

end BulletHell
