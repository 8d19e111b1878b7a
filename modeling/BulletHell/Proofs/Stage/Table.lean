import BulletHell.Stage.Compile
import Mathlib.Data.List.Basic

/-!
# Spawn tables in order

A compiled stage has its spawn table in order of beats, none of them negative. That is all the
scheduler relies on: it walks the table once, and an entry behind its beat would never be looked
at again. In an ordered table the entries before a beat are the first ones, so a place in the
table and a beat say the same thing.

## Main definitions

* `Stage.Ordered` — the table is in order
* `Stage.entriesBefore` — how many entries come before a beat, which is the place of the first
  one that does not

## Main results

* `StageConfig.ordered_of_compile` — a compiled stage is in order
* `Stage.Ordered.lt_entriesBefore_iff` — the places below are the entries before the beat
* `Stage.Ordered.entriesBefore_add_due` — a search for one beat that begins at its place ends
  at the place of the next beat
-/

namespace BulletHell

namespace Stage

variable {τ : Type} {stage : Stage τ}

/-- The spawn table is in order of beats, from zero on. -/
structure Ordered (stage : Stage τ) : Prop where
  nonneg : ∀ entry ∈ stage.spawns, 0 ≤ entry.beat
  sorted : stage.spawns.Pairwise (·.beat ≤ ·.beat)

/-- How many entries of the table come before a beat. -/
def entriesBefore (stage : Stage τ) (beat : Int) : Nat :=
  stage.spawns.countP (·.beat < beat)

theorem entriesBefore_le (stage : Stage τ) (beat : Int) :
    stage.entriesBefore beat ≤ stage.spawns.length :=
  List.countP_le_length

/-! ### Sorted lists of entries -/

/-- Behind an entry that is not before the beat, no entry is. -/
theorem countP_eq_zero_of_sorted {entry : SpawnEvent} {rest : List SpawnEvent} {beat : Int}
    (h : (entry :: rest).Pairwise (·.beat ≤ ·.beat)) (hentry : ¬ entry.beat < beat) :
    rest.countP (·.beat < beat) = 0 := by
  rw [List.countP_eq_zero]
  intro e he
  have hle := List.rel_of_pairwise_cons h he
  simp only [decide_eq_true_eq]
  omega

theorem lt_countP_iff {entries : List SpawnEvent} (h : entries.Pairwise (·.beat ≤ ·.beat))
    (beat : Int) (i : Nat) :
    i < entries.countP (·.beat < beat) ↔ ∃ e, entries[i]? = some e ∧ e.beat < beat := by
  induction entries generalizing i with
  | nil => simp
  | cons entry rest ih =>
    by_cases hentry : entry.beat < beat
    · cases i with
      | zero => simp [hentry]
      | succ i => simpa [List.countP_cons, hentry] using ih h.of_cons i
    · have hrest := countP_eq_zero_of_sorted h hentry
      simp only [List.countP_cons, hrest, hentry, decide_false, Bool.false_eq_true, if_false]
      refine ⟨fun hi => by omega, ?_⟩
      rintro ⟨e, he, hlt⟩
      have hmem : e ∈ entry :: rest := List.mem_of_getElem? he
      rcases List.mem_cons.mp hmem with rfl | hin
      · exact absurd hlt hentry
      · have := List.rel_of_pairwise_cons h hin
        omega

theorem countP_add_takeWhile {entries : List SpawnEvent}
    (h : entries.Pairwise (·.beat ≤ ·.beat)) (beat : Int) :
    entries.countP (·.beat < beat) +
        ((entries.drop (entries.countP (·.beat < beat))).takeWhile (·.beat == beat)).length =
      entries.countP (·.beat < beat + 1) := by
  induction entries with
  | nil => rfl
  | cons entry rest ih =>
    have hih := ih h.of_cons
    rcases Int.lt_trichotomy entry.beat beat with hlt | heq | hgt
    · have hnext : entry.beat < beat + 1 := by omega
      simp only [List.countP_cons, hlt, hnext, decide_true, if_true, List.drop_succ_cons]
      omega
    · have hlt : ¬ entry.beat < beat := by omega
      have hnext : entry.beat < beat + 1 := by omega
      have hrest := countP_eq_zero_of_sorted h hlt
      rw [hrest, List.drop_zero] at hih
      rw [List.countP_cons_of_neg (by simpa using hlt), hrest, List.drop_zero,
        List.takeWhile_cons_of_pos (by simpa using heq), List.countP_cons_of_pos (by simpa using hnext),
        List.length_cons]
      omega
    · have hlt : ¬ entry.beat < beat := by omega
      have hnext : ¬ entry.beat < beat + 1 := by omega
      rw [List.countP_cons_of_neg (by simpa using hlt), countP_eq_zero_of_sorted h hlt,
        List.drop_zero, List.takeWhile_cons_of_neg (by simp only [beq_iff_eq]; omega),
        List.countP_cons_of_neg (by simpa using hnext), countP_eq_zero_of_sorted h hnext]
      rfl

/-! ### Tables in order -/

namespace Ordered

theorem entriesBefore_zero (h : stage.Ordered) : stage.entriesBefore 0 = 0 := by
  rw [entriesBefore, List.countP_eq_zero]
  intro entry hentry
  have := h.nonneg entry hentry
  simp only [decide_eq_true_eq]
  omega

theorem lt_entriesBefore_iff (h : stage.Ordered) (beat : Int) (i : Nat) :
    i < stage.entriesBefore beat ↔ ∃ e, stage.spawns[i]? = some e ∧ e.beat < beat :=
  lt_countP_iff h.sorted beat i

theorem entriesBefore_add_due (h : stage.Ordered) (beat : Int) :
    stage.entriesBefore beat + ((stage.spawns.drop (stage.entriesBefore beat)).takeWhile
      (·.beat == beat)).length = stage.entriesBefore (beat + 1) :=
  countP_add_takeWhile h.sorted beat

end Ordered

end Stage

/-! ### Compiled stages -/

namespace StageConfig

variable {s : StageConfig} {enemyId? : String → Option EnemyId} {powerup : String}

/-- The parts of an entry, one after the other. -/
theorem compileSpawn_eq_ok_iff {index : Nat} {previous : Int} {spawn : SpawnConfig}
    {event : SpawnEvent} :
    s.compileSpawn enemyId? powerup index previous spawn = .ok event ↔
      0 ≤ spawn.beat ∧ previous ≤ spawn.beat ∧
      ∃ target, s.target enemyId? powerup spawn = .ok target ∧
      ∃ route, s.routeRef spawn = .ok route ∧
      ⟨spawn.beat, spawn.lane, target, spawn.condition, spawn.exempt, route, spawn.mirrored⟩ =
        event := by
  rw [compileSpawn]
  by_cases hbeat : spawn.beat < 0
  · simp [hbeat, Int.not_le.mpr hbeat]
  · by_cases hprevious : spawn.beat < previous
    · simp [hbeat, hprevious, Int.not_le.mpr hprevious]
    · rw [if_neg hbeat, if_neg hprevious, and_iff_right (Int.not_lt.mp hbeat),
        and_iff_right (Int.not_lt.mp hprevious)]
      cases s.target enemyId? powerup spawn with
      | error e => simp
      | ok target => cases s.routeRef spawn <;> simp

/-- An entry that compiles keeps its beat, which is not before the previous one. -/
theorem beat_of_compileSpawn {index : Nat} {previous : Int} {spawn : SpawnConfig}
    {event : SpawnEvent}
    (h : s.compileSpawn enemyId? powerup index previous spawn = .ok event) :
    event.beat = spawn.beat ∧ 0 ≤ spawn.beat ∧ previous ≤ spawn.beat := by
  obtain ⟨hbeat, hprevious, target, -, route, -, rfl⟩ := compileSpawn_eq_ok_iff.mp h
  exact ⟨rfl, hbeat, hprevious⟩

theorem sorted_of_compileSpawns {index : Nat} {previous : Int} {spawns : List SpawnConfig}
    {events : List SpawnEvent}
    (h : s.compileSpawns enemyId? powerup index previous spawns = .ok events) :
    (∀ e ∈ events, 0 ≤ e.beat ∧ previous ≤ e.beat) ∧ events.Pairwise (·.beat ≤ ·.beat) := by
  induction spawns generalizing index previous events with
  | nil =>
    obtain rfl := Except.ok.inj h
    simp
  | cons spawn rest ih =>
    rw [compileSpawns] at h
    split at h
    · cases h
    · next event hevent =>
      obtain ⟨hbeat, hpos, hprevious⟩ := beat_of_compileSpawn hevent
      split at h
      · cases h
      · next later hlater =>
        obtain ⟨hbounds, hsorted⟩ := ih hlater
        obtain rfl := Except.ok.inj h
        refine ⟨fun e he => ?_, List.pairwise_cons.mpr ⟨fun e he => ?_, hsorted⟩⟩
        · rcases List.mem_cons.mp he with rfl | hin
          · exact hbeat ▸ ⟨hpos, hprevious⟩
          · exact ⟨(hbounds e hin).1, Int.le_trans hprevious (hbounds e hin).2⟩
        · exact hbeat ▸ (hbounds e he).2

/-- The parts of a stage: its tempo, and its table. -/
theorem compile_eq_ok_iff {stage : Stage Float} :
    s.compile enemyId? powerup = .ok stage ↔
      s.bpm.isFinite = true ∧ 0 < s.bpm ∧
      ∃ spawns, s.compileSpawns enemyId? powerup 0 0 s.spawns = .ok spawns ∧
      ⟨s.name, s.track, s.bpm, s.background, s.scrollSpeed, spawns⟩ = stage := by
  rw [compile, ← and_assoc]
  by_cases hbpm : s.bpm.isFinite = true ∧ 0 < s.bpm
  · rw [if_pos (by simpa using hbpm), and_iff_right hbpm]
    cases s.compileSpawns enemyId? powerup 0 0 s.spawns <;> simp
  · rw [if_neg (by simpa using hbpm)]
    simp [hbpm]

/-- **A compiled stage has its table in order.** -/
theorem ordered_of_compile {stage : Stage Float} (h : s.compile enemyId? powerup = .ok stage) :
    stage.Ordered := by
  obtain ⟨-, -, spawns, hspawns, rfl⟩ := compile_eq_ok_iff.mp h
  obtain ⟨hbounds, hsorted⟩ := sorted_of_compileSpawns hspawns
  exact ⟨fun e he => (hbounds e he).1, hsorted⟩

end StageConfig

end BulletHell
