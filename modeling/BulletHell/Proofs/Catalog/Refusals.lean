import BulletHell.Proofs.Catalog.Acceptance

/-!
# Refused stages

A stage that cannot be compiled is left out, and everything else is as if it had never been written,
but for its name among the refused ones. To say this, two configurations are compared that differ in
their stage lists only: one as it is, one with any number of refused stages put in at any places.
The longer list is given with a mark on each stage, kept or inserted, so that it is known where in
the list of refused names the new names have to be.

Whether a stage is refused is decided by itself, by the names of the enemies and by the name set
aside for powerups. None of these depends on the stage list. So everything in front of it can be
compiled without it: either with success, and then only the stages are left to be sorted out, or
with an error, which is reported whatever the stages are.

## Main definitions

* `GameConfig.Refuses` — the stages that cannot be compiled
* `Catalog.SortsOut` — every stage is played or refused, in its order
* `Placed`, `Catalog.Grows` — stages put in between, and their names among the refused ones

## Main results

* `Catalog.ofConfig_of_soundOffstage`, `Catalog.ofConfig_of_not_soundOffstage` — everything in front
  of the stage list
* `Catalog.grows` — what stages that are put in between change
* `Catalog.bad_stages_are_refused_alone`
-/

namespace BulletHell

namespace GameConfig

/-- The place of the enemy with a given name, in the order in which enemies were written. -/
def enemyId? (config : GameConfig) (name : String) : Option EnemyId :=
  (config.enemies.findIdx? (·.name == name)).map EnemyId.mk

/-- Compiles one stage. -/
def compileStage (config : GameConfig) (s : StageConfig) : Except ConfigError (Stage Float) :=
  s.compile config.enemyId? config.powerup.name

/-- The stage cannot be compiled. -/
def Refuses (config : GameConfig) (s : StageConfig) : Prop :=
  ∃ e, config.compileStage s = .error e

/-- The configuration with other stages. -/
def withStages (config : GameConfig) (stages : List StageConfig) : GameConfig :=
  { config with stages := stages }

end GameConfig

/-- A stage of a list into which others are put. -/
inductive Placed where
  | kept (s : StageConfig)
  | inserted (s : StageConfig)

namespace Placed

def stage : Placed → StageConfig
  | kept s | inserted s => s

/-- The stage, if it was there before. -/
def kept? : Placed → Option StageConfig
  | kept s => some s
  | inserted _ => none

end Placed

namespace Catalog

section Definitions

variable (config : GameConfig)

/-- Every stage is either played or refused. -/
def SortsOut : List StageConfig → List (Stage Float) → List String → Prop :=
  Sifts (fun s stage => config.compileStage s = .ok stage) config.Refuses

/-- How the refused names grow by stages that are put in between: the names of these come in at
their places, and the names that were there stay in order. -/
inductive Grows : List Placed → List String → List String → Prop
  | nil : Grows [] [] []
  | played {s : StageConfig} {places : List Placed} {before after : List String}
      (compiles : ¬ config.Refuses s) (rest : Grows places before after) :
      Grows (.kept s :: places) before after
  | refused {s : StageConfig} {places : List Placed} {before after : List String}
      (defect : config.Refuses s) (rest : Grows places before after) :
      Grows (.kept s :: places) (s.name :: before) (s.name :: after)
  | inserted {s : StageConfig} {places : List Placed} {before after : List String}
      (rest : Grows places before after) :
      Grows (.inserted s :: places) before (s.name :: after)

end Definitions

/-- What is reported if none of a number of stages can be played. -/
def nothingToPlay : Nat → ConfigError
  | 0 => .noStages
  | count + 1 => .noPlayableStages (count + 1)

variable {config : GameConfig}

/-! ### One stage -/

section Stage

variable {s : StageConfig} {written : List StageConfig}

theorem playable_cons_of_compiles {stage : Stage Float} (h : config.compileStage s = .ok stage) :
    playable config.enemyId? config.powerup.name (s :: written) =
      stage :: playable config.enemyId? config.powerup.name written := by
  rw [GameConfig.compileStage] at h
  rw [playable, List.filterMap_cons_some (by rw [h]; rfl)]
  rfl

theorem refusedNames_cons_of_compiles {stage : Stage Float}
    (h : config.compileStage s = .ok stage) :
    refusedNames config.enemyId? config.powerup.name (s :: written) =
      refusedNames config.enemyId? config.powerup.name written := by
  rw [GameConfig.compileStage] at h
  rw [refusedNames, List.filter_cons_of_neg (by simp [h, Except.toOption])]
  rfl

theorem playable_cons_of_refuses (h : config.Refuses s) :
    playable config.enemyId? config.powerup.name (s :: written) =
      playable config.enemyId? config.powerup.name written := by
  obtain ⟨e, he⟩ := h
  rw [GameConfig.compileStage] at he
  rw [playable, List.filterMap_cons_none (by rw [he]; rfl)]
  rfl

theorem refusedNames_cons_of_refuses (h : config.Refuses s) :
    refusedNames config.enemyId? config.powerup.name (s :: written) =
      s.name :: refusedNames config.enemyId? config.powerup.name written := by
  obtain ⟨e, he⟩ := h
  rw [GameConfig.compileStage] at he
  rw [refusedNames, List.filter_cons_of_pos (by simp [he, Except.toOption])]
  rfl

/-- A stage compiles or is refused. -/
theorem compiles_or_refuses (config : GameConfig) (s : StageConfig) :
    (∃ stage, config.compileStage s = .ok stage) ∨ config.Refuses s := by
  cases h : config.compileStage s with
  | ok stage => exact .inl ⟨stage, rfl⟩
  | error e => exact .inr ⟨e, h⟩

theorem not_refuses_of_compiles {stage : Stage Float} (h : config.compileStage s = .ok stage) :
    ¬ config.Refuses s := by
  rintro ⟨e, he⟩
  rw [h] at he
  cases he

end Stage

/-! ### The stage list -/

/-- **Refused stages that are put in between** change nothing but the refused names. -/
theorem grows {places : List Placed} (h : ∀ s, .inserted s ∈ places → config.Refuses s) :
    playable config.enemyId? config.powerup.name (places.map Placed.stage) =
        playable config.enemyId? config.powerup.name (places.filterMap Placed.kept?) ∧
      Grows config places
        (refusedNames config.enemyId? config.powerup.name (places.filterMap Placed.kept?))
        (refusedNames config.enemyId? config.powerup.name (places.map Placed.stage)) := by
  induction places with
  | nil => exact ⟨rfl, .nil⟩
  | cons place places ih =>
    obtain ⟨hplayable, hrefused⟩ := ih fun s hs => h s (List.mem_cons_of_mem _ hs)
    rw [List.map_cons]
    cases place with
    | inserted s =>
      have hbad : config.Refuses s := h s List.mem_cons_self
      rw [List.filterMap_cons_none rfl, Placed.stage, playable_cons_of_refuses hbad,
        refusedNames_cons_of_refuses hbad]
      exact ⟨hplayable, .inserted hrefused⟩
    | kept s =>
      rw [List.filterMap_cons_some (f := Placed.kept?) rfl, Placed.stage]
      obtain ⟨stage, hstage⟩ | hbad := compiles_or_refuses config s
      · simp only [playable_cons_of_compiles hstage, refusedNames_cons_of_compiles hstage]
        exact ⟨congrArg _ hplayable, .played (not_refuses_of_compiles hstage) hrefused⟩
      · simp only [playable_cons_of_refuses hbad, refusedNames_cons_of_refuses hbad]
        exact ⟨hplayable, .refused hbad hrefused⟩

/-- If a stage compiles, something can be played. -/
theorem playable_ne_nil {written : List StageConfig} (h : ∃ s ∈ written, ¬ config.Refuses s) :
    playable config.enemyId? config.powerup.name written ≠ [] :=
  ((sifts _ _ written).ne_nil_iff fun _ _ hcompiles => not_refuses_of_compiles hcompiles).mpr h

/-- If nothing can be played, all names are among the refused ones. -/
theorem refuse_all {written : List StageConfig} (h : ∀ s ∈ written, config.Refuses s) :
    playable config.enemyId? config.powerup.name written = [] ∧
      refusedNames config.enemyId? config.powerup.name written = written.map (·.name) := by
  induction written with
  | nil => exact ⟨rfl, rfl⟩
  | cons s written ih =>
    obtain ⟨hs, hrest⟩ := List.forall_mem_cons.mp h
    obtain ⟨hplayable, hrefused⟩ := ih hrest
    rw [playable_cons_of_refuses hs, refusedNames_cons_of_refuses hs, hrefused]
    exact ⟨hplayable, rfl⟩

/-- Whatever can be played is played, and the others are refused. -/
theorem addStages_of_playable {c : Catalog} {written : List StageConfig}
    (h : playable (findEnemy? c.enemies) c.powerup.name written ≠ []) :
    addStages c written = .ok { c with
      stages := playable (findEnemy? c.enemies) c.powerup.name written,
      refused := refusedNames (findEnemy? c.enemies) c.powerup.name written } := by
  have hwritten : written ≠ [] := by
    rintro rfl
    exact h rfl
  exact addStages_eq_ok_iff.mpr ⟨hwritten, h, rfl⟩

/-! ### What stands in front of the stage list -/

/-- The enemies of a catalog stand where they were written. -/
theorem findEnemy?_of_names {enemies : List EnemyArchetype}
    (h : enemies.map (·.name) = config.enemies.map (·.name)) :
    findEnemy? enemies = config.enemyId? := by
  funext name
  have hplace : enemies.findIdx? (·.name == name) = config.enemies.findIdx? (·.name == name) := by
    have hnames := congrArg (List.findIdx? (· == name)) h
    rwa [List.findIdx?_map, List.findIdx?_map] at hnames
  rw [findEnemy?, GameConfig.enemyId?, hplace]

/-- Without a defect outside the stage list, only the stages are left to be compiled. -/
theorem ofConfig_of_soundOffstage (h : config.SoundOffstage) :
    ∃ c : Catalog, findEnemy? c.enemies = config.enemyId? ∧ c.powerup = config.powerup ∧
      ∀ stages, ofConfig (config.withStages stages) = addStages c stages := by
  obtain ⟨hshots, ⟨enemies, henemies⟩, hnonempty, powerLevels, hlevels⟩ := exists_parts_iff.mpr h
  refine ⟨⟨config.settings, config.shots, enemies, config.powerup, powerLevels, [], []⟩,
    findEnemy?_of_names (names_of_bears (bears_of_compileEnemies henemies)), rfl,
    fun stages => ?_⟩
  simp only [ofConfig, GameConfig.withStages, hshots, henemies, hlevels, List.isEmpty_iff,
    hnonempty, if_false]

/-- A defect outside the stage list is reported before any stage is looked at. -/
theorem ofConfig_of_not_soundOffstage (h : ¬ config.SoundOffstage) :
    ∃ e, ∀ stages, ofConfig (config.withStages stages) = .error e := by
  simp only [ofConfig, GameConfig.withStages]
  cases hshots : firstRepeated? [] (config.shots.map (·.name)) with
  | some name => exact ⟨_, fun _ => rfl⟩
  | none =>
    cases henemies : compileEnemies config.settings config.shots config.powerup.name []
      config.enemies with
    | error e => exact ⟨_, fun _ => rfl⟩
    | ok enemies =>
      by_cases hnone : config.player.powerLevels = []
      · exact ⟨.noPowerLevels, fun _ => by simp [hnone]⟩
      · cases hlevels : compileLevels config.settings config.shots config.player.powerLevels with
        | error e => exact ⟨e, fun _ => by simp [hnone]⟩
        | ok powerLevels =>
          have hsound : config.SoundOffstage :=
            exists_parts_iff.mp ⟨hshots, ⟨enemies, henemies⟩, hnone, powerLevels, hlevels⟩
          exact absurd hsound h

/-! ### Together -/

/-- **A stage that cannot be compiled is refused alone.** In a configuration that is accepted, every
stage is played or refused, and more stages that cannot be compiled add their names to the refused
ones, at their places, and change nothing else. A defect outside the stage list is reported whatever
the stages are. Where there is none, a single stage that compiles is enough, and it is reported if
no stage does. -/
theorem bad_stages_are_refused_alone (config : GameConfig) :
    (∀ c, ofConfig config = .ok c →
      c.enemyId? = config.enemyId? ∧ SortsOut config config.stages c.stages c.refused ∧
      ∀ places : List Placed, places.filterMap Placed.kept? = config.stages →
        (∀ s, .inserted s ∈ places → config.Refuses s) →
        ∃ c', ofConfig (config.withStages (places.map Placed.stage)) = .ok c' ∧
          Grows config places c.refused c'.refused ∧ c' = { c with refused := c'.refused } ∧
          c'.shotId? = c.shotId? ∧ c'.enemyId? = c.enemyId?) ∧
    (¬ config.SoundOffstage → ∃ e, ∀ stages, ofConfig (config.withStages stages) = .error e) ∧
    (config.SoundOffstage → ∀ stages,
      ((∃ s ∈ stages, ¬ config.Refuses s) → ∃ c, ofConfig (config.withStages stages) = .ok c) ∧
      ((∀ s ∈ stages, config.Refuses s) →
        ofConfig (config.withStages stages) = .error (nothingToPlay stages.length))) := by
  refine ⟨fun c hload => ?_, ofConfig_of_not_soundOffstage, fun hsound stages => ?_⟩
  · obtain ⟨c₀, hids, hpowerup, hrest⟩ :=
      ofConfig_of_soundOffstage (sound_of_ofConfig hload).toSoundOffstage
    have hstages : addStages c₀ config.stages = .ok c := (hrest config.stages).symm.trans hload
    rw [addStages_eq_ok_iff, hids, hpowerup] at hstages
    obtain ⟨-, hplayed, rfl⟩ := hstages
    refine ⟨hids, sifts _ _ config.stages, fun places hkept hbad => ?_⟩
    obtain ⟨hplayable, hgrows⟩ := grows hbad
    rw [hkept] at hplayable hgrows
    refine ⟨_, (hrest _).trans (addStages_of_playable ?_), ?_, ?_, rfl, rfl⟩
    · rw [hids, hpowerup, hplayable]
      exact hplayed
    · rw [hids, hpowerup]
      exact hgrows
    · rw [hids, hpowerup, hplayable]
  · obtain ⟨c₀, hids, hpowerup, hrest⟩ := ofConfig_of_soundOffstage hsound
    refine ⟨fun hgood => ?_, fun hbad => ?_⟩
    · refine ⟨_, (hrest stages).trans (addStages_of_playable ?_)⟩
      rw [hids, hpowerup]
      exact playable_ne_nil hgood
    · obtain ⟨hplayable, hrefused⟩ := refuse_all hbad
      simp only [hrest, addStages, hids, hpowerup, hplayable, hrefused]
      cases stages with
      | nil => rfl
      | cons s rest => simp [nothingToPlay]

/-- A stage without a tempo. -/
def hushed : StageConfig := ⟨"hushed", "track", 0, "", 0, [], []⟩

/-- A stage with an entry in front of its first beat. -/
def early : StageConfig :=
  ⟨"early", "track", 120, "", 0, [], [{ beat := -1, lane := 0, prefab := "drone" }]⟩

/-- The stages of the game above, with others put in that cannot be compiled. -/
def crowded : List Placed :=
  .inserted hushed :: twoRoutes.stages.flatMap fun s => [.kept s, .inserted early]

/-- The game with two shots of each name. -/
def twiceArmed : GameConfig :=
  { twoRoutes with shots := twoRoutes.shots ++ twoRoutes.shots }

/-- The stage that can be played is still the first of those that are played. If no stage compiles,
or if two shots go by one name, nothing is loaded. -/
theorem bad_stages_are_refused_alone_of_crowded :
    (ofConfig twoRoutes = .ok twoRoutesCatalog ∧ twoRoutes.Refuses hushed ∧
      twoRoutes.Refuses early ∧
      ofConfig (twoRoutes.withStages (crowded.map Placed.stage)) = .ok { twoRoutesCatalog with
        refused := ["hushed", "void", "early", "early"] } ∧
      Grows twoRoutes crowded ["void"] ["hushed", "void", "early", "early"]) ∧
    ofConfig (twoRoutes.withStages [hushed, early]) = .error (.noPlayableStages 2) ∧
    ¬ twiceArmed.SoundOffstage ∧
    ∃ e, ∀ stages, ofConfig (twiceArmed.withStages stages) = .error e := by
  obtain ⟨haccepted, -, hoffstage⟩ := bad_stages_are_refused_alone twoRoutes
  obtain ⟨-, hdefect, -⟩ := bad_stages_are_refused_alone twiceArmed
  have hload : ofConfig twoRoutes = .ok twoRoutesCatalog := rfl
  have hhushed : twoRoutes.Refuses hushed := ⟨_, rfl⟩
  have hearly : twoRoutes.Refuses early := ⟨_, rfl⟩
  have htwice : ¬ twiceArmed.SoundOffstage := fun hsound => absurd hsound.shots (by decide)
  have hbad : ∀ s, .inserted s ∈ crowded → twoRoutes.Refuses s := by
    intro s hs
    simp only [crowded, twoRoutes, List.flatMap_cons, List.flatMap_nil, List.cons_append,
      List.nil_append, List.mem_cons, List.not_mem_nil, Placed.inserted.injEq, reduceCtorEq,
      false_or, or_false, or_self] at hs
    obtain rfl | rfl := hs
    · exact hhushed
    · exact hearly
  obtain ⟨-, -, hplaces⟩ := haccepted _ hload
  obtain ⟨c', hload', hgrows, -⟩ := hplaces crowded rfl hbad
  have hcrowded : ofConfig (twoRoutes.withStages (crowded.map Placed.stage)) =
      .ok { twoRoutesCatalog with refused := ["hushed", "void", "early", "early"] } := rfl
  obtain rfl := Except.ok.inj (hload'.symm.trans hcrowded)
  obtain ⟨-, hnothing⟩ := hoffstage (sound_of_ofConfig hload).toSoundOffstage [hushed, early]
  refine ⟨⟨hload, hhushed, hearly, hcrowded, hgrows⟩, hnothing ?_, htwice, hdefect htwice⟩
  exact List.forall_mem_cons.mpr ⟨hhushed, List.forall_mem_singleton.mpr hearly⟩

end Catalog

end BulletHell
