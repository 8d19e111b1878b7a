import BulletHell.Proofs.Catalog.Acceptance
import BulletHell.Proofs.Pattern.Requests

/-!
# Names resolve to places that exist

A place that bears a name is there. In a catalog that was loaded every place bears the name that was
written for it, so it has no other places than those that are there: whatever an emitter may ever
fire, in a lenient program as well as in a strict one, and whatever a spawn table may bring.

## Main definitions

* `Catalog.HasShot`, `Catalog.HasEnemy` — the places that exist
* `Catalog.Resolved` — a catalog with no other places in it

## Main results

* `EmitterConfig.Bears.fires` — one emitter
* `SpawnConfig.Bears.hasEnemy` — one entry of a spawn table
* `Catalog.resolved_ofConfig` — every catalog that was loaded
-/

namespace BulletHell

namespace Catalog

/-- The shots that the catalog has. -/
def HasShot (shots : List ShotArchetype) (id : ShotId) : Prop :=
  id.index < shots.length

/-- The enemies that the catalog has. -/
def HasEnemy (enemies : List EnemyArchetype) (id : EnemyId) : Prop :=
  id.index < enemies.length

end Catalog

/-- An emitter fires shots that the catalog has, whatever its program does. -/
theorem EmitterConfig.Bears.fires {shots : List ShotArchetype} {e : EmitterConfig}
    {spec : EmitterSpec} (h : e.Bears shots spec) : spec.Fires (Catalog.HasShot shots) where
  shot := lt_length_of_nameAt h.shot
  program id hid := by
    obtain ⟨written, -, place, hop, hname⟩ := exists_mem_of_forall₂ h.program hid
    cases written with
    | setShot name =>
      obtain rfl : id = place name := Instruction.setShot.inj hop
      exact lt_length_of_nameAt (hname name rfl)
    | _ => cases hop

/-- An entry brings enemies that the catalog has. -/
theorem SpawnConfig.Bears.hasEnemy {s : StageConfig} {enemies : List EnemyArchetype}
    {powerup : String} {spawn : SpawnConfig} {event : SpawnEvent}
    (h : spawn.Bears s enemies powerup event) {id : EnemyId} (hid : event.target = .enemy id) :
    Catalog.HasEnemy enemies id := by
  have hbrings := h.target
  rw [hid] at hbrings
  exact lt_length_of_nameAt hbrings.2

namespace Catalog

/-- The emitters of any power are those of a level, if there are levels at all. -/
theorem powerLevel_mem (c : Catalog) (power : Nat) :
    c.powerLevel power ∈ c.powerLevels ∨ c.powerLevel power = [] := by
  rw [powerLevel, List.getD_eq_getElem?_getD]
  cases hget : c.powerLevels[min power (c.powerLevels.length - 1)]? with
  | none => exact .inr rfl
  | some level => exact .inl (List.mem_of_getElem? hget)

/-- Every place that stands in the catalog exists. -/
structure Resolved (c : Catalog) : Prop where
  enemies : ∀ a ∈ c.enemies, ∀ spec ∈ a.emitters, spec.Fires (HasShot c.shots)
  powerLevels : ∀ level ∈ c.powerLevels, ∀ spec ∈ level, spec.Fires (HasShot c.shots)
  stages : ∀ stage ∈ c.stages, ∀ event ∈ stage.spawns, ∀ id, event.target = .enemy id →
    HasEnemy c.enemies id
  nonempty : c.stages ≠ []

/-- **A catalog that was loaded is resolved.** -/
theorem resolved_ofConfig {config : GameConfig} {c : Catalog} (h : ofConfig config = .ok c) :
    c.Resolved := by
  have hbears : config.Bears c := bears_of_ofConfig h
  have hfires : ∀ {es : List EmitterConfig} {specs : List EmitterSpec},
      List.Forall₂ (EmitterConfig.Bears config.shots) es specs →
        ∀ spec ∈ specs, spec.Fires (HasShot c.shots) := by
    intro es specs hes spec hspec
    obtain ⟨e, -, he⟩ := exists_mem_of_forall₂ hes hspec
    rw [hbears.shots]
    exact he.fires
  refine ⟨fun a ha => ?_, fun level hlevel => ?_, fun stage hstage event hevent id hid => ?_, ?_⟩
  · obtain ⟨e, -, he⟩ := exists_mem_of_forall₂ hbears.enemies ha
    exact hfires he.emitters
  · obtain ⟨es, -, hes⟩ := exists_mem_of_forall₂ hbears.powerLevels hlevel
    exact hfires hes
  · obtain ⟨s, -, hs⟩ := hbears.stages.exists_plays hstage
    obtain ⟨spawn, -, hspawn⟩ := exists_mem_of_forall₂ hs.spawns hevent
    exact hspawn.hasEnemy hid
  · rw [hbears.stages.ne_nil_iff, names_of_bears hbears.enemies]
    exact (sound_of_ofConfig h).playable

end Catalog

end BulletHell
