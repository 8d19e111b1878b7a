import BulletHell.Proofs.Catalog.Bearers
import BulletHell.Proofs.Stage.Playable

/-!
# The configurations that are accepted

A configuration is compiled in a fixed order, and the first defect ends it: shots, enemies, power
levels, stages. For the question what is accepted the order does not matter, only for the question
what is reported. So the conditions stand side by side in one structure, and each of them is about
the configuration as it was written.

A stage with a defect is no defect of the configuration unless it is the last one. It is left out,
and its name is kept; so places of stages are not those in the document, while shots, enemies and
power levels keep theirs.

## Main definitions

* `GameConfig.SoundOffstage`, `GameConfig.Sound` — no defect outside the stage list, and none at all
* `Catalog.Sifts` — a stage list of which some stages are played and others refused
* `Catalog.Schedules`, `GameConfig.Bears` — what was written, and what is played

## Main results

* `Catalog.sifts` — every stage is played or refused, for any way to compile it
* `Catalog.exists_parts_iff` — everything in front of the stage list
* `Catalog.loads_sound_configurations` — which configurations load, and what becomes of them
-/

namespace BulletHell

/-- Outside the stage list there is no defect. -/
structure GameConfig.SoundOffstage (config : GameConfig) : Prop where
  shots : (config.shots.map (·.name)).Nodup
  enemies : (config.enemies.map (·.name)).Nodup
  reserved : ∀ e ∈ config.enemies, e.name ≠ config.powerup.name
  emitters : ∀ e ∈ config.enemies, Catalog.EmittersSound config.settings config.shots e.emitters
  powerLevels : config.player.powerLevels ≠ []
  levels : ∀ level ∈ config.player.powerLevels,
    Catalog.EmittersSound config.settings config.shots level

/-- What a configuration has to be like to be accepted: there is a stage to play besides. -/
structure GameConfig.Sound (config : GameConfig) : Prop extends config.SoundOffstage where
  stages : config.stages ≠ []
  playable : ∃ s ∈ config.stages, s.Playable (config.enemies.map (·.name)) config.powerup.name

/-- Of the stages some are played and others are refused. Those that are played keep their order,
and so do the names of the others. -/
inductive Catalog.Sifts (plays : StageConfig → Stage Float → Prop) (refuses : StageConfig → Prop) :
    List StageConfig → List (Stage Float) → List String → Prop
  | nil : Sifts plays refuses [] [] []
  | played {s : StageConfig} {stage : Stage Float} {written : List StageConfig}
      {stages : List (Stage Float)} {refused : List String} (here : plays s stage)
      (rest : Sifts plays refuses written stages refused) :
      Sifts plays refuses (s :: written) (stage :: stages) refused
  | refused {s : StageConfig} {written : List StageConfig} {stages : List (Stage Float)}
      {refused : List String} (defect : refuses s)
      (rest : Sifts plays refuses written stages refused) :
      Sifts plays refuses (s :: written) stages (s.name :: refused)

/-- What becomes of the stages: the playable ones are played, and the names of the others are
kept. -/
def Catalog.Schedules (enemies : List EnemyArchetype) (powerup : String) :
    List StageConfig → List (Stage Float) → List String → Prop :=
  Sifts (fun s stage => s.Playable (enemies.map (·.name)) powerup ∧ s.Bears enemies powerup stage)
    fun s => ¬ s.Playable (enemies.map (·.name)) powerup

/-- The catalog says what was written, with places that bear the names. -/
structure GameConfig.Bears (config : GameConfig) (c : Catalog) : Prop where
  settings : c.settings = config.settings
  shots : c.shots = config.shots
  powerup : c.powerup = config.powerup
  enemies : List.Forall₂ (EnemyConfig.Bears config.shots) config.enemies c.enemies
  powerLevels : List.Forall₂ (List.Forall₂ (EmitterConfig.Bears config.shots))
    config.player.powerLevels c.powerLevels
  stages : Catalog.Schedules c.enemies config.powerup.name config.stages c.stages c.refused

namespace Catalog

/-! ### The parts -/

theorem firstRepeated?_eq_none_iff {seen names : List String} :
    firstRepeated? seen names = none ↔ names.Nodup ∧ ∀ name ∈ names, name ∉ seen := by
  induction names generalizing seen with
  | nil => simp [firstRepeated?]
  | cons name rest ih =>
    rw [firstRepeated?, List.nodup_cons, List.forall_mem_cons]
    by_cases hseen : name ∈ seen
    · simp [hseen]
    · rw [if_neg (by simpa using hseen), ih]
      simp only [List.mem_cons, not_or]
      constructor
      · rintro ⟨hnodup, hlater⟩
        exact ⟨⟨fun hmem => (hlater name hmem).1 rfl, hnodup⟩, hseen,
          fun other hother => (hlater other hother).2⟩
      · rintro ⟨⟨hother, hnodup⟩, -, hlater⟩
        exact ⟨hnodup, fun other hmem => ⟨fun heq => hother (heq ▸ hmem), hlater other hmem⟩⟩

/-- The enemies keep their names. -/
theorem names_of_bears {shots : List ShotArchetype} {es : List EnemyConfig}
    {enemies : List EnemyArchetype} (h : List.Forall₂ (EnemyConfig.Bears shots) es enemies) :
    enemies.map (·.name) = es.map (·.name) := by
  induction h with
  | nil => rfl
  | cons hbears _ ih => rw [List.map_cons, List.map_cons, ih, hbears.name]

section Stages

variable {plays plays' : StageConfig → Stage Float → Prop} {refuses refuses' : StageConfig → Prop}
  {written : List StageConfig} {stages : List (Stage Float)} {refused : List String}

namespace Sifts

theorem imp (h : Sifts plays refuses written stages refused)
    (hplays : ∀ s stage, plays s stage → plays' s stage)
    (hrefuses : ∀ s, refuses s → refuses' s) : Sifts plays' refuses' written stages refused := by
  induction h with
  | nil => exact .nil
  | played here _ ih => exact .played (hplays _ _ here) ih
  | refused defect _ ih => exact .refused (hrefuses _ defect) ih

/-- Something is played if there is something that is not refused. -/
theorem ne_nil_iff (h : Sifts plays refuses written stages refused)
    (hplays : ∀ s stage, plays s stage → ¬ refuses s) :
    stages ≠ [] ↔ ∃ s ∈ written, ¬ refuses s := by
  induction h with
  | nil => simp
  | @played s _ _ _ _ here _ _ =>
    exact iff_of_true (List.cons_ne_nil _ _) ⟨s, List.mem_cons_self, hplays _ _ here⟩
  | refused defect _ ih =>
    rw [ih]
    simp only [List.mem_cons, or_and_right, exists_or, exists_eq_left, defect, not_true, false_or]

/-- Whatever is played was written. -/
theorem exists_plays (h : Sifts plays refuses written stages refused) {stage : Stage Float}
    (hstage : stage ∈ stages) : ∃ s, plays s stage := by
  induction h with
  | nil => cases hstage
  | @played s _ _ _ _ here _ ih =>
    rcases List.mem_cons.mp hstage with rfl | hmem
    · exact ⟨s, here⟩
    · exact ih hmem
  | refused _ _ ih => exact ih hstage

end Sifts

/-- **One stage after the other** is played if it compiles, and refused if it does not. -/
theorem sifts (enemyId? : String → Option EnemyId) (powerup : String)
    (written : List StageConfig) :
    Sifts (fun s stage => s.compile enemyId? powerup = .ok stage)
      (fun s => ∃ e, s.compile enemyId? powerup = .error e) written
      (playable enemyId? powerup written) (refusedNames enemyId? powerup written) := by
  induction written with
  | nil => exact .nil
  | cons s written ih =>
    rw [playable, refusedNames, List.filterMap_cons, List.filter_cons]
    cases hcompile : s.compile enemyId? powerup with
    | ok stage => exact .played hcompile ih
    | error e => exact .refused ⟨e, hcompile⟩ ih

theorem schedules (enemies : List EnemyArchetype) (powerup : String) (written : List StageConfig) :
    Schedules enemies powerup written (playable (findEnemy? enemies) powerup written)
      (refusedNames (findEnemy? enemies) powerup written) := by
  refine (sifts _ _ _).imp (fun s stage hcompile => ?_) ?_
  · exact ⟨StageConfig.exists_compile_iff.mp ⟨stage, hcompile⟩,
      StageConfig.bears_of_compile hcompile⟩
  · rintro s ⟨e, he⟩ hplayable
    obtain ⟨stage, hstage⟩ := StageConfig.exists_compile_iff.mpr hplayable
    rw [he] at hstage
    cases hstage

theorem addStages_eq_ok_iff {c c' : Catalog} {written : List StageConfig} :
    addStages c written = .ok c' ↔
      written ≠ [] ∧ playable (findEnemy? c.enemies) c.powerup.name written ≠ [] ∧
      { c with
        stages := playable (findEnemy? c.enemies) c.powerup.name written,
        refused := refusedNames (findEnemy? c.enemies) c.powerup.name written } = c' := by
  simp only [addStages]
  by_cases hwritten : written = []
  · simp [hwritten]
  · by_cases hplayable : playable (findEnemy? c.enemies) c.powerup.name written = []
    · simp [hwritten, hplayable]
    · simp [hwritten, hplayable]

/-- Something is played if a stage is playable. -/
theorem Schedules.ne_nil_iff {enemies : List EnemyArchetype} {powerup : String}
    (h : Schedules enemies powerup written stages refused) :
    stages ≠ [] ↔ ∃ s ∈ written, s.Playable (enemies.map (·.name)) powerup := by
  rw [Sifts.ne_nil_iff h fun _ _ here => not_not_intro here.1]
  simp only [not_not]

theorem exists_addStages_iff {c : Catalog} {written : List StageConfig} :
    (∃ c', addStages c written = .ok c') ↔
      written ≠ [] ∧ ∃ s ∈ written, s.Playable (c.enemies.map (·.name)) c.powerup.name := by
  rw [← (schedules c.enemies c.powerup.name written).ne_nil_iff]
  simp only [addStages_eq_ok_iff, exists_and_left, exists_eq', and_true]

end Stages

/-! ### The whole -/

/-- The parts of a configuration, one after the other. -/
theorem ofConfig_eq_ok_iff {config : GameConfig} {c : Catalog} :
    ofConfig config = .ok c ↔
      firstRepeated? [] (config.shots.map (·.name)) = none ∧
      ∃ enemies, compileEnemies config.settings config.shots config.powerup.name []
        config.enemies = .ok enemies ∧
      config.player.powerLevels ≠ [] ∧
      ∃ powerLevels, compileLevels config.settings config.shots config.player.powerLevels =
        .ok powerLevels ∧
      addStages ⟨config.settings, config.shots, enemies, config.powerup, powerLevels, [], []⟩
        config.stages = .ok c := by
  simp only [ofConfig]
  cases firstRepeated? [] (config.shots.map (·.name)) with
  | some name => simp
  | none =>
    cases compileEnemies config.settings config.shots config.powerup.name [] config.enemies with
    | error e => simp
    | ok enemies =>
      cases compileLevels config.settings config.shots config.player.powerLevels with
      | error e => by_cases hlevels : config.player.powerLevels = [] <;> simp [hlevels]
      | ok powerLevels => by_cases hlevels : config.player.powerLevels = [] <;> simp [hlevels]

/-- A catalog that was loaded bears what was written. -/
theorem bears_of_ofConfig {config : GameConfig} {c : Catalog} (h : ofConfig config = .ok c) :
    config.Bears c := by
  obtain ⟨-, enemies, henemies, -, powerLevels, hlevels, hstages⟩ := ofConfig_eq_ok_iff.mp h
  obtain ⟨-, -, rfl⟩ := addStages_eq_ok_iff.mp hstages
  exact ⟨rfl, rfl, rfl, bears_of_compileEnemies henemies, bears_of_compileLevels hlevels,
    schedules _ _ _⟩

/-- The parts in front of the stage list are compiled if there is no defect outside it. -/
theorem exists_parts_iff {config : GameConfig} :
    (firstRepeated? [] (config.shots.map (·.name)) = none ∧
      (∃ enemies, compileEnemies config.settings config.shots config.powerup.name []
        config.enemies = .ok enemies) ∧
      config.player.powerLevels ≠ [] ∧
      ∃ powerLevels, compileLevels config.settings config.shots config.player.powerLevels =
        .ok powerLevels) ↔ config.SoundOffstage := by
  rw [firstRepeated?_eq_none_iff, exists_compileEnemies_iff, exists_compileLevels_iff]
  constructor
  · rintro ⟨⟨hshots, -⟩, ⟨henemies, heach⟩, hnonempty, hlevels⟩
    exact ⟨hshots, henemies, fun e he => (heach e he).1, fun e he => (heach e he).2, hnonempty,
      hlevels⟩
  · rintro ⟨hshots, henemies, hreserved, hemitters, hnonempty, hlevels⟩
    exact ⟨⟨hshots, fun _ _ => List.not_mem_nil⟩,
      ⟨henemies, fun e he => ⟨hreserved e he, hemitters e he⟩⟩, hnonempty, hlevels⟩

theorem sound_of_ofConfig {config : GameConfig} {c : Catalog} (h : ofConfig config = .ok c) :
    config.Sound := by
  obtain ⟨hshots, enemies, henemies, hnonempty, powerLevels, hlevels, hstages⟩ :=
    ofConfig_eq_ok_iff.mp h
  have hoffstage : config.SoundOffstage :=
    exists_parts_iff.mp ⟨hshots, ⟨enemies, henemies⟩, hnonempty, powerLevels, hlevels⟩
  obtain ⟨hwritten, hplayable⟩ := exists_addStages_iff.mp ⟨c, hstages⟩
  rw [names_of_bears (bears_of_compileEnemies henemies)] at hplayable
  exact ⟨hoffstage, hwritten, hplayable⟩

/-- Nothing is refused but for the reasons that are named. -/
theorem exists_ofConfig_of_sound {config : GameConfig} (h : config.Sound) :
    ∃ c, ofConfig config = .ok c := by
  obtain ⟨hoffstage, hwritten, hplayable⟩ := h
  obtain ⟨hshots, ⟨enemies, henemies⟩, hnonempty, powerLevels, hlevels⟩ :=
    exists_parts_iff.mpr hoffstage
  rw [← names_of_bears (bears_of_compileEnemies henemies)] at hplayable
  obtain ⟨c, hstages⟩ : ∃ c, addStages ⟨config.settings, config.shots, enemies, config.powerup,
      powerLevels, [], []⟩ config.stages = .ok c :=
    exists_addStages_iff.mpr ⟨hwritten, hplayable⟩
  exact ⟨c, ofConfig_eq_ok_iff.mpr
    ⟨hshots, enemies, henemies, hnonempty, powerLevels, hlevels, hstages⟩⟩

/-- **Loading accepts the sound configurations and no others, and every name that was written is
found again at the place that stands for it.** -/
theorem loads_sound_configurations (config : GameConfig) :
    ((∃ c, ofConfig config = .ok c) ↔ config.Sound) ∧
      ∀ c, ofConfig config = .ok c → config.Bears c :=
  ⟨⟨fun ⟨_, h⟩ => sound_of_ofConfig h, exists_ofConfig_of_sound⟩, fun _ => bears_of_ofConfig⟩

/-- A game whose stage names two routes alike, and another stage that names what is not there. -/
def twoRoutes : GameConfig where
  shots := [⟨"bolt", .enemy, 5, 0.08⟩, ⟨"spark", .player, 5, 0.08⟩]
  enemies := [{ name := "drone",
                emitters := [{ shot := "bolt",
                               program := [.setShot "spark", .fire, .waitFrames 2] }] }]
  player := ⟨[[{ shot := "bolt", program := [.fire, .waitFrames 4] }]]⟩
  stages := [
    ⟨"void", "track", 120, "", 0, [], [{ beat := 0, lane := 0, prefab := "ghost" }]⟩,
    ⟨"stage", "track", 120, "", 0,
      [⟨"loop", []⟩, ⟨"loop", [⟨Vec2.zero, 1, 0, false⟩, ⟨Vec2.zero, 2, 0, false⟩]⟩],
      [{ beat := 0, lane := 0, prefab := "drone", route := some "loop", step := 1 },
        { beat := 2, lane := 0, prefab := "powerup" }]⟩]

/-- The same game, loaded. -/
def twoRoutesCatalog : Catalog where
  settings := {}
  shots := twoRoutes.shots
  enemies := [⟨"drone", 1, 0, [], [], [], .easeInOut, .linear,
    [⟨Vec2.zero, ⟨0⟩, 1, ⟨[.setShot ⟨1⟩, .fire, .waitFrames 2]⟩⟩]⟩]
  powerup := {}
  powerLevels := [[⟨Vec2.zero, ⟨0⟩, 1, ⟨[.fire, .waitFrames 4]⟩⟩]]
  stages := [⟨"stage", "track", 120, "", 0,
    [⟨0, 0, .enemy ⟨0⟩, .none, false,
      some ⟨[⟨Vec2.zero, 1, 0, false⟩, ⟨Vec2.zero, 2, 0, false⟩], 1⟩, false⟩,
      ⟨2, 0, .powerup, .none, false, none, false⟩]⟩]
  refused := ["void"]

/-- Of the routes the last one is taken. If a shot went by the name of another, the game would not
be sound. -/
theorem loads_sound_configurations_of_twoRoutes :
    ofConfig twoRoutes = .ok twoRoutesCatalog ∧ twoRoutes.Sound ∧
      twoRoutes.Bears twoRoutesCatalog ∧
      ¬ { twoRoutes with shots := twoRoutes.shots ++ twoRoutes.shots }.Sound := by
  have hload : ofConfig twoRoutes = .ok twoRoutesCatalog := rfl
  obtain ⟨haccepts, hbears⟩ := loads_sound_configurations twoRoutes
  refine ⟨hload, haccepts.mp ⟨_, hload⟩, hbears _ hload, fun hsound => ?_⟩
  obtain ⟨c, hc⟩ := (loads_sound_configurations _).1.mpr hsound
  cases hc

end Catalog

end BulletHell
