import BulletHell.Catalog
import BulletHell.Proofs.Catalog.Entries
import BulletHell.Proofs.Pattern.Strictness

/-!
# Emitters and their bearers

What an emitter, an enemy or a power level has to be like to be accepted, and what becomes of it. In
the catalog places stand where names were written, and everything else is as it was written. A place
bears a name if that name is found there again.

Emitters are compiled for enemies and for power levels alike, so both are judged by the same rule;
enemies are judged by their names in addition.

## Main definitions

* `InstructionConfig.Bears`, `EmitterConfig.Bears`, `EnemyConfig.Bears` — what was written, and
  what is played
* `EmitterConfig.Sound`, `Catalog.EmittersSound` — emitters that are accepted

## Main results

* `Program.exists_compile_iff`, `Program.bears_of_compile` — programs
* `Catalog.exists_compileEmitters_iff`, `Catalog.bears_of_compileEmitters` — emitters
* `Catalog.exists_compileEnemies_iff`, `Catalog.bears_of_compileEnemies` — enemies
* `Catalog.exists_compileLevels_iff`, `Catalog.bears_of_compileLevels` — power levels
-/

namespace BulletHell

/-- The place of a shot, or the first place if there is no shot of that name. -/
def Catalog.shotAt (shots : List ShotArchetype) (name : String) : ShotId :=
  (Catalog.findShot? shots name).getD ⟨0⟩

open Catalog (findShot? shotAt)

variable {shots : List ShotArchetype}

theorem Catalog.exists_findShot?_iff {name : String} :
    (∃ id, findShot? shots name = some id) ↔ name ∈ shots.map (·.name) :=
  exists_findIdx?_iff ShotId.mk

theorem Catalog.nameAt_of_findShot? {name : String} {id : ShotId}
    (h : findShot? shots name = some id) : nameAt (·.name) shots id.index = some name := by
  obtain ⟨place, hplace, rfl⟩ := Option.map_eq_some_iff.mp h
  exact nameAt_of_findIdx? hplace

/-- A shot that is there bears its name. -/
theorem Catalog.nameAt_shotAt {name : String} (h : name ∈ shots.map (·.name)) :
    nameAt (·.name) shots (shotAt shots name).index = some name := by
  obtain ⟨id, hid⟩ := exists_findShot?_iff.mpr h
  rw [shotAt, hid]
  exact nameAt_of_findShot? hid

/-! ### Programs -/

namespace InstructionConfig

/-- The instruction with a place for its name. -/
def withPlace (id : String → ShotId) : InstructionConfig → Instruction
  | .fire => .fire
  | .waitFrames frames => .waitFrames frames
  | .waitBeats beats => .waitBeats beats
  | .offsetAngle degrees => .offsetAngle degrees
  | .resetAngle => .resetAngle
  | .setMode mode => .setMode mode
  | .setShot name => .setShot (id name)
  | .mirror => .mirror
  | .damage amount => .damage amount
  | .repeatStart times => .repeatStart times
  | .repeatEnd => .repeatEnd

/-- The instruction says what was written. Where a shot was named, its place bears that name. -/
def Bears (shots : List ShotArchetype) (written : InstructionConfig) (op : Instruction) : Prop :=
  ∃ id, op = written.withPlace id ∧
    ∀ name, written = .setShot name → nameAt (·.name) shots (id name).index = some name

end InstructionConfig

namespace Program

theorem resolve_eq_ok_iff {index : Nat} {written : InstructionConfig} {op : Instruction} :
    resolve (findShot? shots) index written = .ok op ↔
      (∀ name, written = .setShot name → name ∈ shots.map (·.name)) ∧
        op = written.withPlace (shotAt shots) := by
  cases written with
  | setShot name =>
    simp only [resolve, InstructionConfig.withPlace, InstructionConfig.setShot.injEq, forall_eq',
      ← Catalog.exists_findShot?_iff, shotAt]
    cases findShot? shots name with
    | none => simp
    | some id => simp [eq_comm]
  | _ =>
    rw [resolve, InstructionConfig.withPlace, Except.ok.injEq, eq_comm]
    refine ⟨fun h => ⟨fun name hname => ?_, h⟩, fun h => h.2⟩
    cases hname

theorem entryByEntry_resolveFrom (shotId? : String → Option ShotId) :
    EntryByEntry (resolveFrom shotId?) (resolve shotId?) fun index _ => index + 1 where
  nil _ := rfl
  cons index first rest := by
    rw [resolveFrom]
    cases resolve shotId? index first with
    | error e => rfl
    | ok op => cases resolveFrom shotId? (index + 1) rest <;> rfl

/-- Resolved instructions say what was written. -/
theorem eq_map_of_resolveFrom {index : Nat} {written : List InstructionConfig}
    {ops : List Instruction} (h : resolveFrom (findShot? shots) index written = .ok ops) :
    ops = written.map (·.withPlace (shotAt shots)) := by
  have heach : List.Forall₂ (fun written op => written.withPlace (shotAt shots) = op) written ops :=
    (entryByEntry_resolveFrom _).forall₂_of_ok _ (fun hop => (resolve_eq_ok_iff.mp hop).2.symm) h
  rwa [← List.forall₂_map_left_iff, List.forall₂_eq_eq_eq, eq_comm] at heach

/-- The check of a program, if it is asked for. -/
theorem exists_ofInstructions_iff {strict : Bool} {limit : Nat} {ops : List Instruction} :
    (∃ p, ofInstructions strict limit ops = .ok p) ↔ (strict = true → Sound limit ops) := by
  cases strict with
  | false => exact iff_of_true ⟨⟨ops⟩, rfl⟩ fun h => absurd h Bool.false_ne_true
  | true =>
    rw [ofInstructions, if_pos rfl]
    rcases validate_spec limit ops with ⟨hok, hsound⟩ | ⟨error, herror, hblames⟩
    · rw [hok]
      exact iff_of_true ⟨⟨ops⟩, rfl⟩ fun _ => hsound
    · rw [herror]
      constructor
      · rintro ⟨p, hp⟩
        cases hp
      · intro hsound
        exact absurd hblames ((hsound rfl).not_blames error)

theorem compile_eq_ok_iff {strict : Bool} {limit : Nat} {written : List InstructionConfig}
    {p : Program} :
    compile (findShot? shots) strict limit written = .ok p ↔
      ∃ ops, resolveFrom (findShot? shots) 0 written = .ok ops ∧
        ofInstructions strict limit ops = .ok p := by
  rw [compile]
  cases resolveFrom (findShot? shots) 0 written <;> simp

/-- **Programs**: all shots that are named are there, and the loops keep the rules. -/
theorem exists_compile_iff {strict : Bool} {limit : Nat} {written : List InstructionConfig} :
    (∃ p, compile (findShot? shots) strict limit written = .ok p) ↔
      (∀ name, .setShot name ∈ written → name ∈ shots.map (·.name)) ∧
        (strict = true → Sound limit (written.map (·.withPlace (shotAt shots)))) := by
  have hresolve : ∀ index (written : InstructionConfig),
      (∃ op, resolve (findShot? shots) index written = .ok op) ↔
        ∀ name, written = .setShot name → name ∈ shots.map (·.name) := by
    intro index written
    simp only [resolve_eq_ok_iff, exists_and_left, exists_eq, and_true]
  have hnamed : (∃ ops, resolveFrom (findShot? shots) 0 written = .ok ops) ↔
      ∀ name, .setShot name ∈ written → name ∈ shots.map (·.name) := by
    rw [(entryByEntry_resolveFrom _).exists_ok_iff, along_iff_forall hresolve]
    exact ⟨fun h name hmem => h _ hmem name rfl, fun h _ hmem name hname => h name (hname ▸ hmem)⟩
  rw [← hnamed, ← exists_ofInstructions_iff]
  simp only [compile_eq_ok_iff]
  constructor
  · rintro ⟨p, ops, hops, hp⟩
    exact ⟨⟨ops, hops⟩, p, eq_map_of_resolveFrom hops ▸ hp⟩
  · rintro ⟨⟨ops, hops⟩, p, hp⟩
    exact ⟨p, ops, hops, eq_map_of_resolveFrom hops ▸ hp⟩

/-- A program that was accepted has the instructions that it was made from, checked or not. -/
theorem instructions_of_ofInstructions {strict : Bool} {limit : Nat} {ops : List Instruction}
    {p : Program} (h : ofInstructions strict limit ops = .ok p) : p.instructions = ops := by
  rw [ofInstructions] at h
  split at h
  · split at h
    · cases h
    · obtain rfl := Except.ok.inj h
      rfl
  · obtain rfl := Except.ok.inj h
    rfl

/-- What a program says, and what was written. -/
theorem bears_of_compile {strict : Bool} {limit : Nat} {written : List InstructionConfig}
    {p : Program} (h : compile (findShot? shots) strict limit written = .ok p) :
    List.Forall₂ (InstructionConfig.Bears shots) written p.instructions := by
  obtain ⟨ops, hops, hp⟩ := compile_eq_ok_iff.mp h
  rw [instructions_of_ofInstructions hp]
  refine (entryByEntry_resolveFrom _).forall₂_of_ok _ (fun hop => ?_) hops
  obtain ⟨hnamed, hwritten⟩ := resolve_eq_ok_iff.mp hop
  exact ⟨shotAt shots, hwritten, fun name hname => Catalog.nameAt_shotAt (hnamed name hname)⟩

end Program

/-! ### Emitters -/

/-- An emitter is accepted if all shots that it names are there, and the loops of its program keep
the rules where these are asked for. -/
structure EmitterConfig.Sound (settings : Settings) (shots : List ShotArchetype)
    (e : EmitterConfig) : Prop where
  shot : e.shot ∈ shots.map (·.name)
  setShots : ∀ name, .setShot name ∈ e.program → name ∈ shots.map (·.name)
  program : settings.strictPrograms = true →
    Program.Sound settings.maxRepeatDepth (e.program.map (·.withPlace (shotAt shots)))

/-- The emitter is as it was written, with places that bear the names of its shots. -/
structure EmitterConfig.Bears (shots : List ShotArchetype) (e : EmitterConfig)
    (spec : EmitterSpec) : Prop where
  offset : spec.offset = e.offset
  damage : spec.damage = e.damage
  shot : nameAt (·.name) shots spec.shot.index = some e.shot
  program : List.Forall₂ (InstructionConfig.Bears shots) e.program spec.program.instructions

namespace Catalog

variable {settings : Settings}

/-- No more emitters than fit, and each of them is accepted. -/
def EmittersSound (settings : Settings) (shots : List ShotArchetype) (es : List EmitterConfig) :
    Prop :=
  es.length ≤ settings.maxEmitters ∧ ∀ e ∈ es, e.Sound settings shots

theorem compileEmitter_eq_ok_iff {owner : String} {number : Nat} {e : EmitterConfig}
    {spec : EmitterSpec} :
    compileEmitter settings shots owner number e = .ok spec ↔
      ∃ shot, findShot? shots e.shot = some shot ∧
      ∃ program, Program.compile (findShot? shots) settings.strictPrograms settings.maxRepeatDepth
        e.program = .ok program ∧
      ⟨e.offset, shot, e.damage, program⟩ = spec := by
  rw [compileEmitter]
  cases findShot? shots e.shot with
  | none => simp
  | some shot =>
    cases Program.compile (findShot? shots) settings.strictPrograms settings.maxRepeatDepth
      e.program <;> simp

theorem exists_compileEmitter_iff {owner : String} {number : Nat} {e : EmitterConfig} :
    (∃ spec, compileEmitter settings shots owner number e = .ok spec) ↔
      e.Sound settings shots := by
  constructor
  · rintro ⟨spec, h⟩
    obtain ⟨shot, hshot, program, hprogram, -⟩ := compileEmitter_eq_ok_iff.mp h
    obtain ⟨hnamed, hsound⟩ := Program.exists_compile_iff.mp ⟨program, hprogram⟩
    exact ⟨exists_findShot?_iff.mp ⟨shot, hshot⟩, hnamed, hsound⟩
  · rintro ⟨hshot, hnamed, hsound⟩
    obtain ⟨shot, hshot⟩ := exists_findShot?_iff.mpr hshot
    obtain ⟨program, hprogram⟩ := Program.exists_compile_iff.mpr ⟨hnamed, hsound⟩
    exact ⟨_, compileEmitter_eq_ok_iff.mpr ⟨shot, hshot, program, hprogram, rfl⟩⟩

theorem bears_of_compileEmitter {owner : String} {number : Nat} {e : EmitterConfig}
    {spec : EmitterSpec} (h : compileEmitter settings shots owner number e = .ok spec) :
    e.Bears shots spec := by
  obtain ⟨shot, hshot, program, hprogram, rfl⟩ := compileEmitter_eq_ok_iff.mp h
  exact ⟨rfl, rfl, nameAt_of_findShot? hshot, Program.bears_of_compile hprogram⟩

theorem entryByEntry_compileEmittersFrom (settings : Settings) (shots : List ShotArchetype)
    (owner : String) :
    EntryByEntry (compileEmittersFrom settings shots owner) (compileEmitter settings shots owner)
      fun number _ => number + 1 where
  nil _ := rfl
  cons number e rest := by
    rw [compileEmittersFrom]
    cases compileEmitter settings shots owner number e with
    | error e => rfl
    | ok spec => cases compileEmittersFrom settings shots owner (number + 1) rest <;> rfl

theorem compileEmitters_eq_ok_iff {owner : String} {es : List EmitterConfig}
    {specs : List EmitterSpec} :
    compileEmitters settings shots owner es = .ok specs ↔
      es.length ≤ settings.maxEmitters ∧
        compileEmittersFrom settings shots owner 0 es = .ok specs := by
  rw [compileEmitters]
  by_cases hmany : settings.maxEmitters < es.length
  · simp [hmany, Nat.not_le.mpr hmany]
  · rw [if_neg hmany, and_iff_right (Nat.not_lt.mp hmany)]

/-- **Emitters** of one owner. -/
theorem exists_compileEmitters_iff {owner : String} {es : List EmitterConfig} :
    (∃ specs, compileEmitters settings shots owner es = .ok specs) ↔
      EmittersSound settings shots es := by
  have heach : ∀ number (e : EmitterConfig),
      (∃ spec, compileEmitter settings shots owner number e = .ok spec) ↔ e.Sound settings shots :=
    fun _ _ => exists_compileEmitter_iff
  simp only [compileEmitters_eq_ok_iff, exists_and_left, EmittersSound]
  rw [(entryByEntry_compileEmittersFrom _ _ _).exists_ok_iff, along_iff_forall heach]

theorem bears_of_compileEmitters {owner : String} {es : List EmitterConfig}
    {specs : List EmitterSpec} (h : compileEmitters settings shots owner es = .ok specs) :
    List.Forall₂ (EmitterConfig.Bears shots) es specs :=
  (entryByEntry_compileEmittersFrom _ _ _).forall₂_of_ok _ bears_of_compileEmitter
    (compileEmitters_eq_ok_iff.mp h).2

/-! ### Power levels -/

theorem entryByEntry_compileLevels (settings : Settings) (shots : List ShotArchetype) :
    EntryByEntry (fun _ : Unit => compileLevels settings shots)
      (fun _ => compileEmitters settings shots "player") fun _ _ => () where
  nil _ := rfl
  cons _ level rest := by
    simp only [compileLevels]
    cases compileEmitters settings shots "player" level with
    | error e => rfl
    | ok specs => cases compileLevels settings shots rest <;> rfl

/-- **Power levels.** -/
theorem exists_compileLevels_iff {levels : List (List EmitterConfig)} :
    (∃ powerLevels, compileLevels settings shots levels = .ok powerLevels) ↔
      ∀ level ∈ levels, EmittersSound settings shots level := by
  have heach : ∀ (_ : Unit) (level : List EmitterConfig),
      (∃ specs, compileEmitters settings shots "player" level = .ok specs) ↔
        EmittersSound settings shots level :=
    fun _ _ => exists_compileEmitters_iff
  rw [(entryByEntry_compileLevels settings shots).exists_ok_iff (), along_iff_forall heach]

theorem bears_of_compileLevels {levels : List (List EmitterConfig)}
    {powerLevels : List (List EmitterSpec)}
    (h : compileLevels settings shots levels = .ok powerLevels) :
    List.Forall₂ (List.Forall₂ (EmitterConfig.Bears shots)) levels powerLevels :=
  (entryByEntry_compileLevels settings shots).forall₂_of_ok () bears_of_compileEmitters h

end Catalog

/-! ### Enemies -/

/-- The enemy is as it was written, and so are its emitters. -/
structure EnemyConfig.Bears (shots : List ShotArchetype) (e : EnemyConfig) (a : EnemyArchetype) :
    Prop where
  name : a.name = e.name
  health : a.health = e.health
  score : a.score = e.score
  hurtBoxes : a.hurtBoxes = e.hurtBoxes
  shieldBoxes : a.shieldBoxes = e.shieldBoxes
  hitBoxes : a.hitBoxes = e.hitBoxes
  xCurve : a.xCurve = e.xCurve
  yCurve : a.yCurve = e.yCurve
  emitters : List.Forall₂ (EmitterConfig.Bears shots) e.emitters a.emitters

namespace Catalog

variable {settings : Settings}

/-- Compiles one enemy, given the names that were taken. -/
def compileEnemy (settings : Settings) (shots : List ShotArchetype) (powerup : String)
    (taken : List String) (e : EnemyConfig) : Except ConfigError EnemyArchetype :=
  if e.name = powerup || taken.contains e.name then .error (.duplicateArchetype e.name)
  else
    match compileEmitters settings shots e.name e.emitters with
    | .error e => .error e
    | .ok emitters =>
      .ok { name := e.name, health := e.health, score := e.score,
            hurtBoxes := e.hurtBoxes, shieldBoxes := e.shieldBoxes,
            hitBoxes := e.hitBoxes, xCurve := e.xCurve, yCurve := e.yCurve,
            emitters := emitters }

theorem entryByEntry_compileEnemies (settings : Settings) (shots : List ShotArchetype)
    (powerup : String) :
    EntryByEntry (compileEnemies settings shots powerup) (compileEnemy settings shots powerup)
      fun taken e => e.name :: taken where
  nil _ := rfl
  cons taken e rest := by
    rw [compileEnemies, compileEnemy]
    split
    · rfl
    · cases compileEmitters settings shots e.name e.emitters with
      | error e => rfl
      | ok emitters => cases compileEnemies settings shots powerup (e.name :: taken) rest <;> rfl

theorem compileEnemy_eq_ok_iff {powerup : String} {taken : List String} {e : EnemyConfig}
    {a : EnemyArchetype} :
    compileEnemy settings shots powerup taken e = .ok a ↔
      e.name ∉ taken ∧ e.name ≠ powerup ∧
      ∃ emitters, compileEmitters settings shots e.name e.emitters = .ok emitters ∧
      ⟨e.name, e.health, e.score, e.hurtBoxes, e.shieldBoxes, e.hitBoxes, e.xCurve, e.yCurve,
        emitters⟩ = a := by
  rw [compileEnemy]
  by_cases hpowerup : e.name = powerup
  · simp [hpowerup]
  · by_cases htaken : e.name ∈ taken
    · simp [htaken]
    · rw [if_neg (by simp [hpowerup, htaken]), and_iff_right htaken, and_iff_right hpowerup]
      cases compileEmitters settings shots e.name e.emitters <;> simp

theorem exists_compileEnemy_iff {powerup : String} {taken : List String} {e : EnemyConfig} :
    (∃ a, compileEnemy settings shots powerup taken e = .ok a) ↔
      e.name ∉ taken ∧ e.name ≠ powerup ∧ EmittersSound settings shots e.emitters := by
  constructor
  · rintro ⟨a, h⟩
    obtain ⟨hfree, hother, emitters, hemitters, -⟩ := compileEnemy_eq_ok_iff.mp h
    exact ⟨hfree, hother, exists_compileEmitters_iff.mp ⟨emitters, hemitters⟩⟩
  · rintro ⟨hfree, hother, hsound⟩
    obtain ⟨emitters, hemitters⟩ := exists_compileEmitters_iff.mpr hsound
    exact ⟨_, compileEnemy_eq_ok_iff.mpr ⟨hfree, hother, emitters, hemitters, rfl⟩⟩

theorem bears_of_compileEnemy {powerup : String} {taken : List String} {e : EnemyConfig}
    {a : EnemyArchetype} (h : compileEnemy settings shots powerup taken e = .ok a) :
    e.Bears shots a := by
  obtain ⟨-, -, emitters, hemitters, rfl⟩ := compileEnemy_eq_ok_iff.mp h
  exact ⟨rfl, rfl, rfl, rfl, rfl, rfl, rfl, rfl, bears_of_compileEmitters hemitters⟩

/-- **Enemies.** -/
theorem exists_compileEnemies_iff {powerup : String} {es : List EnemyConfig} :
    (∃ enemies, compileEnemies settings shots powerup [] es = .ok enemies) ↔
      (es.map (·.name)).Nodup ∧
        ∀ e ∈ es, e.name ≠ powerup ∧ EmittersSound settings shots e.emitters := by
  have heach : ∀ taken (e : EnemyConfig),
      (∃ a, compileEnemy settings shots powerup taken e = .ok a) ↔
        e.name ∉ taken ∧ e.name ≠ powerup ∧ EmittersSound settings shots e.emitters :=
    fun _ _ => exists_compileEnemy_iff
  rw [(entryByEntry_compileEnemies settings shots powerup).exists_ok_iff, along_iff_nodup heach]
  simp

theorem bears_of_compileEnemies {powerup : String} {es : List EnemyConfig}
    {enemies : List EnemyArchetype}
    (h : compileEnemies settings shots powerup [] es = .ok enemies) :
    List.Forall₂ (EnemyConfig.Bears shots) es enemies :=
  (entryByEntry_compileEnemies settings shots powerup).forall₂_of_ok _ bears_of_compileEnemy h

end Catalog

end BulletHell
