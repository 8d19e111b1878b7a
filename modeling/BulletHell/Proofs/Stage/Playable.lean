import BulletHell.Catalog
import BulletHell.Proofs.Catalog.Entries
import BulletHell.Proofs.Stage.Table
import Mathlib.Data.Option.Basic

/-!
# Playable stages

What a stage has to be like to be accepted, and what becomes of its spawn table. Of a table that is
accepted, every entry is kept in its place. Where it named an enemy it brings the enemy that stands
at the place of that name; where it named a route it has the steps of that route. Several routes of
a stage may go by one name, and then the last of them counts.

The order of the table is a matter between neighbours, so what is remembered from entry to entry is
the beat. It begins with zero. A negative beat is out of order for that reason already, and the test
for it only decides which defect is reported.

## Main definitions

* `StageConfig.LastRoute` — the route that counts for a name
* `SpawnConfig.Sound`, `StageConfig.Playable` — what is accepted
* `SpawnConfig.Bears`, `StageConfig.Bears` — what was written, and what is played

## Main results

* `StageConfig.exists_compile_iff` — the stages that are accepted
* `StageConfig.bears_of_compile` — what becomes of them
-/

namespace BulletHell

open Catalog (findEnemy?)

variable {enemies : List EnemyArchetype} {powerup : String}

theorem Catalog.exists_findEnemy?_iff {name : String} :
    (∃ id, findEnemy? enemies name = some id) ↔ name ∈ enemies.map (·.name) :=
  exists_findIdx?_iff EnemyId.mk

theorem Catalog.nameAt_of_findEnemy? {name : String} {id : EnemyId}
    (h : findEnemy? enemies name = some id) :
    nameAt (·.name) enemies id.index = some name := by
  obtain ⟨place, hplace, rfl⟩ := Option.map_eq_some_iff.mp h
  exact nameAt_of_findIdx? hplace

/-! ### What is accepted, and what is played -/

/-- The steps of a route, after which no other route of that name comes. -/
def StageConfig.LastRoute (s : StageConfig) (name : String) (steps : List RouteStep) : Prop :=
  ∃ before after, s.routes = before ++ ⟨name, steps⟩ :: after ∧ ∀ route ∈ after, route.name ≠ name

namespace SpawnConfig

/-- An entry is accepted if its prefab is there, and if the route that it names has the step to
begin with. -/
structure Sound (s : StageConfig) (names : List String) (powerup : String) (spawn : SpawnConfig) :
    Prop where
  prefab : spawn.prefab = powerup ∨ spawn.prefab ∈ names
  route : ∀ name, spawn.route = some name →
    ∃ steps, s.LastRoute name steps ∧ spawn.step < steps.length

/-- What is brought is what was written. The name set aside for powerups comes first. -/
def Brings (enemies : List EnemyArchetype) (powerup : String) (spawn : SpawnConfig) :
    SpawnTarget → Prop
  | .powerup => spawn.prefab = powerup
  | .enemy id =>
    spawn.prefab ≠ powerup ∧ nameAt (·.name) enemies id.index = some spawn.prefab

/-- The entry is carried over as it was written. -/
structure Carried (spawn : SpawnConfig) (event : SpawnEvent) : Prop where
  beat : event.beat = spawn.beat
  lane : event.lane = spawn.lane
  condition : event.condition = spawn.condition
  exempt : event.exempt = spawn.exempt
  mirrored : event.mirrored = spawn.mirrored

/-- The entry is as it was written, with what is brought and the steps that are taken in place of
their names. -/
structure Bears (s : StageConfig) (enemies : List EnemyArchetype) (powerup : String)
    (spawn : SpawnConfig) (event : SpawnEvent) : Prop extends spawn.Carried event where
  target : spawn.Brings enemies powerup event.target
  route : Option.Rel
    (fun name ref => s.LastRoute name ref.steps ∧ ref.start = spawn.step ∧
      ref.start < ref.steps.length) spawn.route event.route

end SpawnConfig

namespace StageConfig

/-- A stage is accepted if it has a tempo, and a table in order whose entries are accepted. -/
structure Playable (names : List String) (powerup : String) (s : StageConfig) : Prop where
  finite : s.bpm.isFinite = true
  positive : 0 < s.bpm
  beats : ∀ spawn ∈ s.spawns, 0 ≤ spawn.beat
  sorted : s.spawns.Pairwise (·.beat ≤ ·.beat)
  spawns : ∀ spawn ∈ s.spawns, spawn.Sound s names powerup

/-- The stage is as it was written, and so are the entries of its table. -/
structure Bears (enemies : List EnemyArchetype) (powerup : String) (s : StageConfig)
    (stage : Stage Float) : Prop where
  name : stage.name = s.name
  track : stage.track = s.track
  bpm : stage.bpm = s.bpm
  background : stage.background = s.background
  scrollSpeed : stage.scrollSpeed = s.scrollSpeed
  spawns : List.Forall₂ (SpawnConfig.Bears s enemies powerup) s.spawns stage.spawns

/-! ### Entries -/

variable {s : StageConfig}

/-- The search goes backwards, so it is the last route that it finds. -/
theorem route?_eq_some_iff {name : String} {steps : List RouteStep} :
    s.route? name = some steps ↔ s.LastRoute name steps := by
  simp only [route?, Option.map_eq_some_iff, List.find?_eq_some_iff_append, beq_iff_eq,
    List.reverse_eq_append_iff, List.reverse_cons, List.append_assoc, List.singleton_append]
  constructor
  · rintro ⟨⟨name, steps⟩, ⟨rfl, after, before, hroutes, hlast⟩, rfl⟩
    refine ⟨before.reverse, after.reverse, hroutes, fun route hroute => ?_⟩
    simpa using hlast route (List.mem_reverse.mp hroute)
  · rintro ⟨before, after, hroutes, hlast⟩
    refine ⟨⟨name, steps⟩, ⟨rfl, after.reverse, before.reverse, ?_, fun route hroute => ?_⟩, rfl⟩
    · rw [List.reverse_reverse, List.reverse_reverse, hroutes]
    · simpa using hlast route (List.mem_reverse.mp hroute)

theorem exists_target_iff {spawn : SpawnConfig} :
    (∃ target, s.target (findEnemy? enemies) powerup spawn = .ok target) ↔
      spawn.prefab = powerup ∨ spawn.prefab ∈ enemies.map (·.name) := by
  rw [StageConfig.target, ← Catalog.exists_findEnemy?_iff]
  by_cases hprefab : spawn.prefab = powerup
  · simp [hprefab]
  · cases findEnemy? enemies spawn.prefab <;> simp [hprefab]

theorem brings_of_target {spawn : SpawnConfig} {target : SpawnTarget}
    (h : s.target (findEnemy? enemies) powerup spawn = .ok target) :
    spawn.Brings enemies powerup target := by
  rw [StageConfig.target] at h
  split at h
  · next hprefab =>
    obtain rfl := Except.ok.inj h
    exact hprefab
  · next hprefab =>
    split at h
    · next id hid =>
      obtain rfl := Except.ok.inj h
      exact ⟨hprefab, Catalog.nameAt_of_findEnemy? hid⟩
    · cases h

theorem exists_routeRef_iff {spawn : SpawnConfig} :
    (∃ ref, s.routeRef spawn = .ok ref) ↔
      ∀ name, spawn.route = some name →
        ∃ steps, s.LastRoute name steps ∧ spawn.step < steps.length := by
  simp only [← route?_eq_some_iff]
  rw [routeRef]
  cases hroute : spawn.route with
  | none => simp
  | some name =>
    cases hsteps : s.route? name with
    | none => simp [hsteps]
    | some steps => by_cases hstep : spawn.step < steps.length <;> simp [hsteps, hstep]

theorem rel_of_routeRef {spawn : SpawnConfig} {ref : Option RouteRef}
    (h : s.routeRef spawn = .ok ref) :
    Option.Rel
      (fun name ref => s.LastRoute name ref.steps ∧ ref.start = spawn.step ∧
        ref.start < ref.steps.length) spawn.route ref := by
  rw [routeRef] at h
  split at h
  · next hroute =>
    obtain rfl := Except.ok.inj h
    rw [hroute]
    exact .none
  · next name hroute =>
    split at h
    · cases h
    · next steps hsteps =>
      split at h
      · next hstep =>
        obtain rfl := Except.ok.inj h
        rw [hroute]
        exact .some ⟨route?_eq_some_iff.mp hsteps, rfl, hstep⟩
      · cases h

/-- What is tested of an entry: its beat for itself, then against the beat before, then what it
names. -/
theorem exists_compileSpawn_iff {memory : Nat × Int} {spawn : SpawnConfig} :
    (∃ event, s.compileSpawn (findEnemy? enemies) powerup memory.1 memory.2 spawn = .ok event) ↔
      memory.2 ≤ spawn.beat ∧ 0 ≤ spawn.beat ∧ spawn.Sound s (enemies.map (·.name)) powerup := by
  constructor
  · rintro ⟨event, h⟩
    obtain ⟨hbeat, hprevious, target, htarget, ref, href, -⟩ := compileSpawn_eq_ok_iff.mp h
    exact ⟨hprevious, hbeat, exists_target_iff.mp ⟨target, htarget⟩,
      exists_routeRef_iff.mp ⟨ref, href⟩⟩
  · rintro ⟨hprevious, hbeat, hprefab, hroute⟩
    obtain ⟨target, htarget⟩ := exists_target_iff.mpr hprefab
    obtain ⟨ref, href⟩ := exists_routeRef_iff.mpr hroute
    exact ⟨_, compileSpawn_eq_ok_iff.mpr ⟨hbeat, hprevious, target, htarget, ref, href, rfl⟩⟩

theorem carried_of_compileSpawn {enemyId? : String → Option EnemyId} {memory : Nat × Int}
    {spawn : SpawnConfig} {event : SpawnEvent}
    (h : s.compileSpawn enemyId? powerup memory.1 memory.2 spawn = .ok event) :
    spawn.Carried event := by
  obtain ⟨-, -, target, -, ref, -, rfl⟩ := compileSpawn_eq_ok_iff.mp h
  exact ⟨rfl, rfl, rfl, rfl, rfl⟩

theorem bears_of_compileSpawn {memory : Nat × Int} {spawn : SpawnConfig} {event : SpawnEvent}
    (h : s.compileSpawn (findEnemy? enemies) powerup memory.1 memory.2 spawn = .ok event) :
    spawn.Bears s enemies powerup event := by
  have hcarried : spawn.Carried event := carried_of_compileSpawn h
  obtain ⟨-, -, target, htarget, ref, href, rfl⟩ := compileSpawn_eq_ok_iff.mp h
  exact ⟨hcarried, brings_of_target htarget, rel_of_routeRef href⟩

/-! ### Tables -/

theorem entryByEntry_compileSpawns (s : StageConfig) (enemyId? : String → Option EnemyId)
    (powerup : String) :
    EntryByEntry (fun memory : Nat × Int => s.compileSpawns enemyId? powerup memory.1 memory.2)
      (fun memory => s.compileSpawn enemyId? powerup memory.1 memory.2)
      fun memory spawn => (memory.1 + 1, spawn.beat) where
  nil _ := rfl
  cons memory spawn rest := by
    simp only [compileSpawns]
    cases s.compileSpawn enemyId? powerup memory.1 memory.2 spawn with
    | error e => rfl
    | ok event =>
      cases s.compileSpawns enemyId? powerup (memory.1 + 1) spawn.beat rest <;> rfl

theorem exists_compileSpawns_iff {spawns : List SpawnConfig} :
    (∃ events, s.compileSpawns (findEnemy? enemies) powerup 0 0 spawns = .ok events) ↔
      (∀ spawn ∈ spawns, 0 ≤ spawn.beat) ∧ spawns.Pairwise (·.beat ≤ ·.beat) ∧
        ∀ spawn ∈ spawns, spawn.Sound s (enemies.map (·.name)) powerup := by
  have heach : ∀ (memory : Nat × Int) (spawn : SpawnConfig),
      (∃ event, s.compileSpawn (findEnemy? enemies) powerup memory.1 memory.2 spawn = .ok event) ↔
        memory.2 ≤ spawn.beat ∧ 0 ≤ spawn.beat ∧ spawn.Sound s (enemies.map (·.name)) powerup :=
    fun _ _ => exists_compileSpawn_iff
  rw [(entryByEntry_compileSpawns s (findEnemy? enemies) powerup).exists_ok_iff (0, 0),
    along_iff_sorted (·.2) (·.beat) (fun _ _ => rfl) heach]
  constructor
  · rintro ⟨hbeats, hsorted, hspawns⟩
    exact ⟨hbeats, hsorted, fun spawn hmem => (hspawns spawn hmem).2⟩
  · rintro ⟨hbeats, hsorted, hspawns⟩
    exact ⟨hbeats, hsorted, fun spawn hmem => ⟨hbeats spawn hmem, hspawns spawn hmem⟩⟩

/-- **The stages that are accepted.** -/
theorem exists_compile_iff :
    (∃ stage, s.compile (findEnemy? enemies) powerup = .ok stage) ↔
      s.Playable (enemies.map (·.name)) powerup := by
  constructor
  · rintro ⟨stage, h⟩
    obtain ⟨hfinite, hpositive, events, hevents, -⟩ := compile_eq_ok_iff.mp h
    obtain ⟨hbeats, hsorted, hspawns⟩ := exists_compileSpawns_iff.mp ⟨events, hevents⟩
    exact ⟨hfinite, hpositive, hbeats, hsorted, hspawns⟩
  · rintro ⟨hfinite, hpositive, hbeats, hsorted, hspawns⟩
    obtain ⟨events, hevents⟩ := exists_compileSpawns_iff.mpr ⟨hbeats, hsorted, hspawns⟩
    exact ⟨_, compile_eq_ok_iff.mpr ⟨hfinite, hpositive, events, hevents, rfl⟩⟩

/-- **What becomes of a stage.** -/
theorem bears_of_compile {stage : Stage Float}
    (h : s.compile (findEnemy? enemies) powerup = .ok stage) : s.Bears enemies powerup stage := by
  obtain ⟨-, -, events, hevents, rfl⟩ := compile_eq_ok_iff.mp h
  exact ⟨rfl, rfl, rfl, rfl, rfl,
    (entryByEntry_compileSpawns s (findEnemy? enemies) powerup).forall₂_of_ok (0, 0)
      bears_of_compileSpawn hevents⟩

end StageConfig

end BulletHell
