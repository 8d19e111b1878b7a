import BulletHell.Proofs.Actor.Requests
import BulletHell.Proofs.Catalog.Resolved
import BulletHell.Proofs.World.Launches

/-!
# Fire control under watch

Fire control answers every request. One for a shot that the catalog does not have gets the answer
of a full pool, and so does not look different from outside. Under watch it does: a mark is left
by the first access out of range, and stays. Nothing else changes, so whatever emitters do under
watch they do without; and as long as emitters fire only what the catalog has, no mark is left.

## Main definitions

* `Watch` — fire control and the mark
* `Watch.result?` — fire control, if no mark was left

## Main results

* `Watch.alike` — emitters fire alike under watch
* `Watch.course` — emitters that fire what the catalog has leave no mark
-/

namespace BulletHell

/-- Fire control under watch. -/
structure Watch where
  fire : FireControl
  /-- Every access so far was in range. -/
  inRange : Bool

namespace Watch

/-- The watch begins. -/
def on (f : FireControl) : Watch :=
  ⟨f, true⟩

/-- Leaves a mark unless an access is in range. -/
def require (w : Watch) (ok : Bool) : Watch :=
  { w with inRange := w.inRange && ok }

/-- Fire control when the watch ends, if no mark was left. -/
def result? (w : Watch) : Option FireControl :=
  if w.inRange then some w.fire else none

/-- A random angle is drawn from a range around zero, which may not be empty. -/
def randomSpread (w : Watch) (spread : Int) : Int × Watch :=
  let bound : Int := min spread.natAbs 0x7fffffff
  let (angle, fire) := w.fire.randomSpread spread
  (angle, { w with fire := fire }.require (-bound ≤ bound))

/-- The kind of a requested shot is looked up. -/
def spawnShot (w : Watch) (request : ShotRequest) : Bool × Watch :=
  let (room, fire) := w.fire.spawnShot request
  (room, { w with fire := fire }.require (request.shot.index < w.fire.archetypes.length))

instance : FireContext Watch where
  angleToTarget w := w.fire.angleToTarget
  randomSpread := randomSpread
  spawnShot := spawnShot

/-- **Emitters fire alike** under watch. -/
theorem alike : FireContext.Alike fun (f : FireControl) (w : Watch) => w.fire = f where
  angle := by
    rintro f w rfl origin
    rfl
  random := by
    rintro f w rfl spread
    exact ⟨_, rfl, rfl⟩
  spawn := by
    rintro f w rfl request
    rfl

/-- No mark was left, and the shots that there are have not changed. -/
structure Clean (shots : List ShotArchetype) (w : Watch) : Prop where
  archetypes : w.fire.archetypes = shots
  inRange : w.inRange = true

variable {shots : List ShotArchetype}

theorem clean_on {f : FireControl} (h : f.archetypes = shots) : (on f).Clean shots :=
  ⟨h, rfl⟩

theorem Clean.require {w : Watch} (h : w.Clean shots) {ok : Bool} (hok : ok = true) :
    (w.require ok).Clean shots :=
  ⟨h.archetypes, by rw [Watch.require, h.inRange, hok]; rfl⟩

theorem Clean.result? {w : Watch} (h : w.Clean shots) : w.result? = some w.fire :=
  if_pos h.inRange

/-- **No mark is left** by emitters that fire what there is. -/
theorem course (shots : List ShotArchetype) :
    FireContext.Course (Catalog.HasShot shots)
      fun w w' : Watch => w.Clean shots → w'.Clean shots where
  refl _ h := h
  trans h h' hclean := h' (h hclean)
  random w spread h := by
    refine Clean.require (w := ⟨(w.fire.randomSpread spread).2, w.inRange⟩)
      ⟨h.archetypes, h.inRange⟩ ?_
    rw [decide_eq_true_eq]
    omega
  spawn w request hshot h := by
    obtain ⟨ls, hlaunches⟩ := w.fire.launches_spawnShot request
    refine Clean.require (w := ⟨(w.fire.spawnShot request).2, w.inRange⟩)
      ⟨hlaunches.archetypes.trans h.archetypes, h.inRange⟩ ?_
    rw [decide_eq_true_eq, h.archetypes]
    exact hshot

end Watch

end BulletHell
