import BulletHell.Proofs.Stage.Playable

/-!
# The first defect of a stage

A stage that cannot be compiled is refused with one defect, however many it has. Which one this is
can be said without going through the table: the tempo comes first, then the table, of the table the
first entry that breaks a rule, and of the rules the first one that it breaks.

Each rule is about one entry in its place. The rule of order looks at the entry in front as well,
and nowhere else does the place matter. While the table is compiled, the beat of that entry is
remembered from the step before. Where no entry is in front, zero is remembered; this makes no
difference, as a beat below zero breaks a rule that comes earlier.

Nothing is asked here of where the names of enemies come from. So the names are any map, and not the
names of some enemies.

## Main definitions

* `SpawnRule`, `StageConfig.Keeps` — the rules for an entry in its place
* `StageConfig.WellFormed` — the same rules, for a table as a whole
* `StageConfig.FirstBroken`, `StageConfig.Reports` — the rule that is to blame, and its report
* `StageConfig.Blames` — the defect of a stage

## Main results

* `StageConfig.wellFormed_iff` — a table is well formed if each of its entries keeps the rules
* `StageConfig.compileSpawn_spec` — one entry
* `StageConfig.compile_blames_the_first_defect`
-/

namespace BulletHell

/-- What is asked of an entry of a spawn table. -/
inductive SpawnRule where
  /-- Its beat is not negative. -/
  | beat
  /-- It does not come before the entry in front of it. -/
  | order
  /-- What it brings is there. -/
  | prefab
  /-- The route that it names is there. -/
  | route
  /-- That route has the step to begin with. -/
  | step
deriving DecidableEq

/-- How many rules come first. -/
def SpawnRule.rank : SpawnRule → Nat
  | beat => 0
  | order => 1
  | prefab => 2
  | route => 3
  | step => 4

theorem SpawnRule.rank_injective {r r' : SpawnRule} (h : r.rank = r'.rank) : r = r' := by
  cases r <;> cases r' <;> first | rfl | cases h

namespace StageConfig

/-- Beats per minute that make sense. -/
def HasTempo (s : StageConfig) : Prop :=
  s.bpm.isFinite = true ∧ 0 < s.bpm

/-- The entry in front of a place. -/
def inFront? (s : StageConfig) : Nat → Option SpawnConfig
  | 0 => none
  | place + 1 => s.spawns[place]?

section Rules

variable (s : StageConfig) (enemyId? : String → Option EnemyId) (powerup : String) (place : Nat)
  (spawn : SpawnConfig)

/-- An entry keeps a rule in its place. -/
def Keeps : SpawnRule → Prop
  | .beat => 0 ≤ spawn.beat
  | .order => ∀ previous, s.inFront? place = some previous → previous.beat ≤ spawn.beat
  | .prefab => spawn.prefab = powerup ∨ (enemyId? spawn.prefab).isSome = true
  | .route => ∀ name, spawn.route = some name → ∃ steps, s.LastRoute name steps
  | .step => ∀ name steps, spawn.route = some name → s.LastRoute name steps →
      spawn.step < steps.length

/-- An entry breaks a rule, and keeps all those that come first. -/
structure FirstBroken (rule : SpawnRule) : Prop where
  broken : ¬ s.Keeps enemyId? powerup place spawn rule
  before : ∀ other : SpawnRule, other.rank < rule.rank →
    s.Keeps enemyId? powerup place spawn other

/-- What is reported of an entry that breaks a rule. -/
inductive Reports : SpawnRule → ConfigError → Prop
  | beat : Reports .beat (.negativeBeat s.name place spawn.beat)
  | order {previous : SpawnConfig} (h : s.inFront? place = some previous) :
      Reports .order (.spawnOrder s.name place spawn.beat previous.beat)
  | prefab : Reports .prefab (.unknownArchetype s.name spawn.prefab)
  | route {name : String} (h : spawn.route = some name) :
      Reports .route (.unknownRoute s.name name)
  | step {name : String} (h : spawn.route = some name) :
      Reports .step (.routeStepOutOfRange s.name name spawn.step)

end Rules

section Stage

variable (s : StageConfig) (enemyId? : String → Option EnemyId) (powerup : String)

/-- A stage with a tempo, and with a table in order that names nothing but what is there. -/
structure WellFormed : Prop where
  tempo : s.HasTempo
  beats : ∀ spawn ∈ s.spawns, 0 ≤ spawn.beat
  sorted : s.spawns.Pairwise (·.beat ≤ ·.beat)
  prefabs : ∀ spawn ∈ s.spawns, spawn.prefab = powerup ∨ (enemyId? spawn.prefab).isSome = true
  routes : ∀ spawn ∈ s.spawns, ∀ name, spawn.route = some name → ∃ steps, s.LastRoute name steps
  steps : ∀ spawn ∈ s.spawns, ∀ name steps, spawn.route = some name → s.LastRoute name steps →
    spawn.step < steps.length

/-- The defect of a stage: its tempo, or the first rule that its first unsound entry breaks. -/
inductive Blames : ConfigError → Prop
  | tempo (h : ¬ s.HasTempo) : Blames (.invalidBpm s.name s.bpm)
  | entry (htempo : s.HasTempo) {place : Nat} {spawn : SpawnConfig}
      (hspawn : s.spawns[place]? = some spawn)
      (hbefore : ∀ earlier < place, ∀ other, s.spawns[earlier]? = some other →
        ∀ rule, s.Keeps enemyId? powerup earlier other rule)
      {rule : SpawnRule} (hfirst : s.FirstBroken enemyId? powerup place spawn rule)
      {error : ConfigError} (hreport : s.Reports place spawn rule error) : Blames error

end Stage

variable {s : StageConfig} {enemyId? : String → Option EnemyId} {powerup : String} {place : Nat}
  {spawn : SpawnConfig}

/-! ### Rules -/

theorem FirstBroken.unique {rule rule' : SpawnRule}
    (h : s.FirstBroken enemyId? powerup place spawn rule)
    (h' : s.FirstBroken enemyId? powerup place spawn rule') : rule = rule' := by
  rcases Nat.lt_trichotomy rule.rank rule'.rank with hlt | heq | hgt
  · exact absurd (h'.before rule hlt) h.broken
  · exact SpawnRule.rank_injective heq
  · exact absurd (h.before rule' hgt) h'.broken

theorem Reports.unique {rule : SpawnRule} {error error' : ConfigError}
    (h : s.Reports place spawn rule error) (h' : s.Reports place spawn rule error') :
    error = error' := by
  cases h with
  | beat =>
    cases h'
    rfl
  | order h =>
    cases h' with
    | order h' => rw [Option.some.inj (h.symm.trans h')]
  | prefab =>
    cases h'
    rfl
  | route h =>
    cases h' with
    | route h' => rw [Option.some.inj (h.symm.trans h')]
  | step h =>
    cases h' with
    | step h' => rw [Option.some.inj (h.symm.trans h')]

/-- **A table is well formed** if each of its entries keeps the rules in its place. -/
theorem wellFormed_iff :
    s.WellFormed enemyId? powerup ↔
      s.HasTempo ∧ ∀ place spawn, s.spawns[place]? = some spawn →
        ∀ rule, s.Keeps enemyId? powerup place spawn rule := by
  have hsorted : s.spawns.Pairwise (·.beat ≤ ·.beat) ↔
      ∀ place spawn, s.spawns[place]? = some spawn →
        s.Keeps enemyId? powerup place spawn .order := by
    rw [← List.isChain_iff_pairwise, List.isChain_iff_getElem]
    constructor
    · intro hchain place spawn hspawn previous hfront
      cases place with
      | zero => cases hfront
      | succ place =>
        obtain ⟨hlt, rfl⟩ := List.getElem?_eq_some_iff.mp hspawn
        obtain ⟨-, rfl⟩ := List.getElem?_eq_some_iff.mp hfront
        exact hchain place hlt
    · intro hkeeps place hlt
      exact hkeeps (place + 1) _ (List.getElem?_eq_getElem hlt) _
        (List.getElem?_eq_getElem (Nat.lt_of_succ_lt hlt))
  constructor
  · intro h
    refine ⟨h.tempo, fun place spawn hspawn rule => ?_⟩
    have hmem := List.mem_of_getElem? hspawn
    cases rule with
    | beat => exact h.beats spawn hmem
    | order => exact hsorted.mp h.sorted place spawn hspawn
    | prefab => exact h.prefabs spawn hmem
    | route => exact h.routes spawn hmem
    | step => exact h.steps spawn hmem
  · rintro ⟨htempo, hrules⟩
    have hkeeps : ∀ spawn ∈ s.spawns, ∃ place, ∀ rule,
        s.Keeps enemyId? powerup place spawn rule := fun spawn hmem => by
      obtain ⟨place, hspawn⟩ := List.mem_iff_getElem?.mp hmem
      exact ⟨place, hrules place spawn hspawn⟩
    exact
      { tempo := htempo
        beats := fun spawn hmem => (hkeeps spawn hmem).elim fun _ h => h .beat
        sorted := hsorted.mpr fun place spawn hspawn => hrules place spawn hspawn .order
        prefabs := fun spawn hmem => (hkeeps spawn hmem).elim fun _ h => h .prefab
        routes := fun spawn hmem => (hkeeps spawn hmem).elim fun _ h => h .route
        steps := fun spawn hmem => (hkeeps spawn hmem).elim fun _ h => h .step }

/-! ### One entry -/

/-- The beat that is remembered at a place. -/
def beatInFront (s : StageConfig) (place : Nat) : Int :=
  ((s.inFront? place).map (·.beat)).getD 0

/-- With a beat that is not negative, what is remembered decides the rule of order. -/
theorem beatInFront_le_iff (hbeat : 0 ≤ spawn.beat) :
    s.beatInFront place ≤ spawn.beat ↔ s.Keeps enemyId? powerup place spawn .order := by
  rw [beatInFront, Keeps]
  cases s.inFront? place with
  | none => exact iff_of_true hbeat nofun
  | some previous => exact ⟨fun h _ heq => Option.some.inj heq ▸ h, fun h => h previous rfl⟩

theorem target_spec (s : StageConfig) (enemyId? : String → Option EnemyId) (powerup : String)
    (place : Nat) (spawn : SpawnConfig) :
    (∃ target, s.target enemyId? powerup spawn = .ok target) ∧
        s.Keeps enemyId? powerup place spawn .prefab ∨
      s.target enemyId? powerup spawn = .error (.unknownArchetype s.name spawn.prefab) ∧
        ¬ s.Keeps enemyId? powerup place spawn .prefab := by
  rw [StageConfig.target, Keeps]
  by_cases hpowerup : spawn.prefab = powerup
  · exact .inl ⟨⟨_, if_pos hpowerup⟩, .inl hpowerup⟩
  · rw [if_neg hpowerup]
    cases enemyId? spawn.prefab with
    | some id => exact .inl ⟨⟨_, rfl⟩, .inr rfl⟩
    | none => exact .inr ⟨rfl, by simp [hpowerup]⟩

/-- The route that counts for a name is looked up first, and then its step. -/
theorem routeRef_spec (s : StageConfig) (enemyId? : String → Option EnemyId) (powerup : String)
    (place : Nat) (spawn : SpawnConfig) :
    (∃ ref, s.routeRef spawn = .ok ref) ∧ s.Keeps enemyId? powerup place spawn .route ∧
        s.Keeps enemyId? powerup place spawn .step ∨
      ∃ name, spawn.route = some name ∧
        (s.routeRef spawn = .error (.unknownRoute s.name name) ∧
            ¬ s.Keeps enemyId? powerup place spawn .route ∨
          s.routeRef spawn = .error (.routeStepOutOfRange s.name name spawn.step) ∧
            s.Keeps enemyId? powerup place spawn .route ∧
            ¬ s.Keeps enemyId? powerup place spawn .step) := by
  cases hroute : spawn.route with
  | none =>
    refine .inl ⟨⟨none, by rw [routeRef, hroute]⟩, ?_, ?_⟩
    · intro name hname
      cases hroute.symm.trans hname
    · intro name steps hname
      cases hroute.symm.trans hname
  | some name =>
    have hnamed : ∀ {name'}, spawn.route = some name' → name' = name :=
      fun h => Option.some.inj (h.symm.trans hroute)
    cases hsteps : s.route? name with
    | none =>
      refine .inr ⟨name, rfl, .inl ⟨by simp only [routeRef, hroute, hsteps], fun hkeeps => ?_⟩⟩
      obtain ⟨steps, hlast⟩ := hkeeps name hroute
      cases hsteps.symm.trans (route?_eq_some_iff.mpr hlast)
    | some steps =>
      have hlast : s.LastRoute name steps := route?_eq_some_iff.mp hsteps
      have hthere : s.Keeps enemyId? powerup place spawn .route := by
        intro name' hname'
        rw [hnamed hname']
        exact ⟨steps, hlast⟩
      by_cases hstep : spawn.step < steps.length
      · refine .inl ⟨⟨some ⟨steps, spawn.step⟩, ?_⟩, hthere, fun name' steps' hname' hlast' => ?_⟩
        · simp only [routeRef, hroute, hsteps, if_pos hstep]
        · rw [hnamed hname'] at hlast'
          rwa [Option.some.inj ((route?_eq_some_iff.mpr hlast').symm.trans hsteps)]
      · refine .inr ⟨name, rfl, .inr ⟨?_, hthere, fun hkeeps => ?_⟩⟩
        · simp only [routeRef, hroute, hsteps, if_neg hstep]
        · exact hstep (hkeeps name steps hroute hlast)

/-- **One entry** is compiled if it keeps all rules, and otherwise the first that it breaks is
reported. -/
theorem compileSpawn_spec (s : StageConfig) (enemyId? : String → Option EnemyId) (powerup : String)
    (place : Nat) (spawn : SpawnConfig) :
    (∃ event, s.compileSpawn enemyId? powerup place (s.beatInFront place) spawn = .ok event) ∧
        (∀ rule, s.Keeps enemyId? powerup place spawn rule) ∨
      ∃ rule error,
        s.compileSpawn enemyId? powerup place (s.beatInFront place) spawn = .error error ∧
          s.FirstBroken enemyId? powerup place spawn rule ∧ s.Reports place spawn rule error := by
  rw [compileSpawn]
  by_cases hnegative : spawn.beat < 0
  · refine .inr ⟨.beat, _, if_pos hnegative, ⟨Int.not_le.mpr hnegative, fun other hother => ?_⟩,
      .beat⟩
    exact absurd hother (Nat.not_lt_zero _)
  have hbeat : s.Keeps enemyId? powerup place spawn .beat := Int.not_lt.mp hnegative
  rw [if_neg hnegative]
  by_cases hlate : spawn.beat < s.beatInFront place
  · rw [if_pos hlate]
    obtain ⟨previous, hfront⟩ : ∃ previous, s.inFront? place = some previous := by
      rw [← Option.ne_none_iff_exists']
      intro hnone
      rw [beatInFront, hnone] at hlate
      exact hnegative hlate
    have hprevious : s.beatInFront place = previous.beat := by rw [beatInFront, hfront]; rfl
    refine .inr ⟨.order, _, rfl, ⟨fun hkeeps => ?_, fun other hother => ?_⟩, ?_⟩
    · exact Int.not_le.mpr hlate ((beatInFront_le_iff hbeat).mpr hkeeps)
    · cases other with
      | beat => exact hbeat
      | _ => exact absurd hother (by decide)
    · rw [hprevious]
      exact .order hfront
  have horder : s.Keeps enemyId? powerup place spawn .order :=
    (beatInFront_le_iff hbeat).mp (Int.not_lt.mp hlate)
  rw [if_neg hlate]
  rcases target_spec s enemyId? powerup place spawn with ⟨⟨target, htarget⟩, hprefab⟩ |
    ⟨htarget, hprefab⟩
  swap
  · rw [htarget]
    refine .inr ⟨.prefab, _, rfl, ⟨hprefab, fun other hother => ?_⟩, .prefab⟩
    cases other with
    | beat => exact hbeat
    | order => exact horder
    | _ => exact absurd hother (by decide)
  rw [htarget]
  rcases routeRef_spec s enemyId? powerup place spawn with ⟨⟨ref, href⟩, hroute, hstep⟩ |
    ⟨name, hname, ⟨href, hroute⟩ | ⟨href, hroute, hstep⟩⟩
  · rw [href]
    refine .inl ⟨⟨_, rfl⟩, fun rule => ?_⟩
    cases rule <;> assumption
  · rw [href]
    refine .inr ⟨.route, _, rfl, ⟨hroute, fun other hother => ?_⟩, .route hname⟩
    cases other with
    | route => exact absurd hother (by decide)
    | step => exact absurd hother (by decide)
    | _ => assumption
  · rw [href]
    refine .inr ⟨.step, _, rfl, ⟨hstep, fun other hother => ?_⟩, .step hname⟩
    cases other with
    | step => exact absurd hother (by decide)
    | _ => assumption

theorem exists_compileSpawn_eq_ok_iff :
    (∃ event, s.compileSpawn enemyId? powerup place (s.beatInFront place) spawn = .ok event) ↔
      ∀ rule, s.Keeps enemyId? powerup place spawn rule := by
  rcases compileSpawn_spec s enemyId? powerup place spawn with ⟨hok, hkeeps⟩ |
    ⟨rule, error, herror, hfirst, -⟩
  · exact iff_of_true hok hkeeps
  · refine iff_of_false ?_ fun hkeeps => hfirst.broken (hkeeps rule)
    rintro ⟨event, hevent⟩
    cases herror.symm.trans hevent

theorem compileSpawn_eq_error_iff {error : ConfigError} :
    s.compileSpawn enemyId? powerup place (s.beatInFront place) spawn = .error error ↔
      ∃ rule, s.FirstBroken enemyId? powerup place spawn rule ∧
        s.Reports place spawn rule error := by
  rcases compileSpawn_spec s enemyId? powerup place spawn with ⟨⟨event, hok⟩, hkeeps⟩ |
    ⟨rule, error', herror, hfirst, hreport⟩
  · rw [hok]
    refine iff_of_false nofun ?_
    rintro ⟨rule, hfirst, -⟩
    exact hfirst.broken (hkeeps rule)
  · rw [herror, Except.error.injEq]
    constructor
    · rintro rfl
      exact ⟨rule, hfirst, hreport⟩
    · rintro ⟨rule', hfirst', hreport'⟩
      obtain rfl := hfirst.unique hfirst'
      exact hreport.unique hreport'

/-! ### The table -/

/-- What is remembered at a place: its number, and the beat in front of it. -/
theorem memoryAt_spawns (s : StageConfig) {place : Nat} (h : place ≤ s.spawns.length) :
    memoryAt (fun (memory : Nat × Int) (spawn : SpawnConfig) => (memory.1 + 1, spawn.beat)) (0, 0)
      s.spawns place = (place, s.beatInFront place) := by
  induction place with
  | zero => rfl
  | succ place ih =>
    have hspawn : s.spawns[place]? = some s.spawns[place] := List.getElem?_eq_getElem h
    have hfront : s.beatInFront (place + 1) = s.spawns[place].beat :=
      congrArg (fun front => (front.map (·.beat)).getD 0) hspawn
    have hbefore := ih (Nat.le_of_succ_le h)
    rw [memoryAt] at hbefore ⊢
    rw [List.take_add_one, hspawn, List.foldl_append, hbefore, hfront]
    rfl

theorem exists_compileSpawns_eq_ok_iff :
    (∃ events, s.compileSpawns enemyId? powerup 0 0 s.spawns = .ok events) ↔
      ∀ place spawn, s.spawns[place]? = some spawn →
        ∀ rule, s.Keeps enemyId? powerup place spawn rule := by
  rw [(entryByEntry_compileSpawns s enemyId? powerup).exists_ok_iff (0, 0), along_iff_memoryAt]
  refine forall_congr' fun place => forall_congr' fun spawn => imp_congr_right fun hspawn => ?_
  rw [memoryAt_spawns s (Nat.le_of_lt (List.getElem?_eq_some_iff.mp hspawn).1)]
  exact exists_compileSpawn_eq_ok_iff

theorem compileSpawns_eq_error_iff {error : ConfigError} :
    s.compileSpawns enemyId? powerup 0 0 s.spawns = .error error ↔
      ∃ place spawn, s.spawns[place]? = some spawn ∧
        (∀ earlier < place, ∀ other, s.spawns[earlier]? = some other →
          ∀ rule, s.Keeps enemyId? powerup earlier other rule) ∧
        ∃ rule, s.FirstBroken enemyId? powerup place spawn rule ∧
          s.Reports place spawn rule error := by
  rw [(entryByEntry_compileSpawns s enemyId? powerup).eq_error_iff (0, 0)]
  refine exists_congr fun place => exists_congr fun spawn => and_congr_right fun hspawn => ?_
  have hwithin := (List.getElem?_eq_some_iff.mp hspawn).1
  rw [memoryAt_spawns s (Nat.le_of_lt hwithin)]
  refine and_congr ?_ compileSpawn_eq_error_iff
  refine forall_congr' fun earlier => imp_congr_right fun hearlier => ?_
  rw [memoryAt_spawns s (Nat.le_of_lt (Nat.lt_trans hearlier hwithin))]
  exact forall_congr' fun other => imp_congr_right fun _ => exists_compileSpawn_eq_ok_iff

/-! ### The stage -/

theorem exists_compile_eq_ok_iff :
    (∃ stage, s.compile enemyId? powerup = .ok stage) ↔ s.WellFormed enemyId? powerup := by
  rw [wellFormed_iff, ← exists_compileSpawns_eq_ok_iff, HasTempo]
  constructor
  · rintro ⟨stage, h⟩
    obtain ⟨hfinite, hpositive, events, hevents, -⟩ := compile_eq_ok_iff.mp h
    exact ⟨⟨hfinite, hpositive⟩, events, hevents⟩
  · rintro ⟨⟨hfinite, hpositive⟩, events, hevents⟩
    exact ⟨_, compile_eq_ok_iff.mpr ⟨hfinite, hpositive, events, hevents, rfl⟩⟩

theorem compile_eq_error_iff {error : ConfigError} :
    s.compile enemyId? powerup = .error error ↔ s.Blames enemyId? powerup error := by
  by_cases htempo : s.HasTempo
  · have htable : s.compile enemyId? powerup = .error error ↔
        s.compileSpawns enemyId? powerup 0 0 s.spawns = .error error := by
      rw [compile, if_pos (by simpa [HasTempo] using htempo)]
      cases s.compileSpawns enemyId? powerup 0 0 s.spawns <;> simp
    rw [htable, compileSpawns_eq_error_iff]
    constructor
    · rintro ⟨place, spawn, hspawn, hbefore, rule, hfirst, hreport⟩
      exact .entry htempo hspawn hbefore hfirst hreport
    · intro h
      cases h with
      | tempo h => exact absurd htempo h
      | entry _ hspawn hbefore hfirst hreport =>
        exact ⟨_, _, hspawn, hbefore, _, hfirst, hreport⟩
  · rw [compile, if_neg (by simpa [HasTempo] using htempo), Except.error.injEq]
    constructor
    · rintro rfl
      exact .tempo htempo
    · intro h
      cases h with
      | tempo => rfl
      | entry h => exact absurd h htempo

/-- Entries are carried over in their places. -/
theorem carried_of_compile {stage : Stage Float} (h : s.compile enemyId? powerup = .ok stage) :
    List.Forall₂ SpawnConfig.Carried s.spawns stage.spawns := by
  obtain ⟨-, -, events, hevents, rfl⟩ := compile_eq_ok_iff.mp h
  exact (entryByEntry_compileSpawns s enemyId? powerup).forall₂_of_ok (0, 0)
    carried_of_compileSpawn hevents

/-- **Well-formed stages compile, and of any other the first defect is reported.** With any names
for enemies and for powerups, a stage compiles exactly if it has a tempo, its beats are not negative
and in order, and all that its entries name is there. Then every entry is carried over, in its
place. Otherwise the report is on the tempo, if that is wrong, and if not, on the first entry that
breaks a rule; and it says which of the rules is the first that this entry breaks. -/
theorem compile_blames_the_first_defect (s : StageConfig) (enemyId? : String → Option EnemyId)
    (powerup : String) :
    ((∃ stage, s.compile enemyId? powerup = .ok stage) ↔ s.WellFormed enemyId? powerup) ∧
      (∀ stage, s.compile enemyId? powerup = .ok stage →
        List.Forall₂ SpawnConfig.Carried s.spawns stage.spawns) ∧
      ∀ error, s.compile enemyId? powerup = .error error ↔ s.Blames enemyId? powerup error :=
  ⟨exists_compile_eq_ok_iff, fun _ => carried_of_compile, fun _ => compile_eq_error_iff⟩

/-- A map that knows one name. -/
def onlyDrones (name : String) : Option EnemyId :=
  if name = "drone" then some ⟨0⟩ else none

/-- A stage of one entry, on the second of two routes that are named alike. -/
def orderly : StageConfig where
  name := "stage"
  track := "track"
  bpm := 120
  routes := [⟨"loop", []⟩, ⟨"loop", [⟨Vec2.zero, 1, 0, false⟩]⟩]
  spawns := [{ beat := 2, lane := 0, prefab := "drone", route := some "loop" }]

/-- A second entry comes before the first one, brings what is not there, and begins behind the end
of its route. A third one has a negative beat. -/
def disorderly : StageConfig :=
  { orderly with spawns := orderly.spawns ++
      [{ beat := 1, lane := 0, prefab := "ghost", route := some "loop", step := 1 },
        { beat := -1, lane := 0, prefab := "drone" }] }

/-- The order of the second entry is to blame. -/
theorem compile_blames_the_first_defect_of_disorderly :
    orderly.WellFormed onlyDrones "powerup" ∧
      (∃ stage, orderly.compile onlyDrones "powerup" = .ok stage ∧
        List.Forall₂ SpawnConfig.Carried orderly.spawns stage.spawns) ∧
      ¬ disorderly.WellFormed onlyDrones "powerup" ∧
      disorderly.Blames onlyDrones "powerup" (.spawnOrder "stage" 1 1 2) := by
  have hcompiled : orderly.compile onlyDrones "powerup" = .ok ⟨"stage", "track", 120, "", 0,
      [⟨2, 0, .enemy ⟨0⟩, .none, false, some ⟨[⟨Vec2.zero, 1, 0, false⟩], 0⟩, false⟩]⟩ := rfl
  have hrefused : disorderly.compile onlyDrones "powerup" = .error (.spawnOrder "stage" 1 1 2) :=
    rfl
  obtain ⟨haccepts, hcarried, -⟩ := compile_blames_the_first_defect orderly onlyDrones "powerup"
  obtain ⟨hrefuses, -, hblames⟩ := compile_blames_the_first_defect disorderly onlyDrones "powerup"
  refine ⟨haccepts.mp ⟨_, hcompiled⟩, ⟨_, hcompiled, hcarried _ hcompiled⟩, fun hformed => ?_,
    (hblames _).mp hrefused⟩
  obtain ⟨stage, hstage⟩ := hrefuses.mpr hformed
  cases hrefused.symm.trans hstage

end StageConfig

end BulletHell
