import BulletHell.Proofs.Stage.Table
import BulletHell.Proofs.Timeline.Session

/-!
# Every entry comes due once, on its own beat

The events of a session fall into chapters, one for each stage that was started, and a chapter
has the beats of its stage. In each chapter the beats are numbered from zero on without a gap,
and what they hand out of the spawn table are adjacent ranges: the beat numbered `k` hands out
exactly the entries that are written for beat `k`.

## The invariant

Between two calls the cursor is at the place of the first beat that has not come yet, and the
number of beats that came is the length of the last chapter. A beat finds the cursor there, and
its search leaves the cursor at the place of the next beat. A skipped or doubled beat would
leave the cursor in front of entries that no later search gets past.

Bar lines, pauses and late calls do not come into it: both ways to cross a beat count it in the
same way, and nothing else moves the cursor or the counter.

## Main definitions

* `Chapter` — a stage that was started and its beats
* `HandsOut` — what the beats of a chapter are to hand out
* `Session.Chronicle` — the invariant
* `Accounts` — what it says about a session

## Main results

* `Session.Chronicle.call`, `Session.exists_chronicle` — it holds at all times
* `handsOut_of_comes` — what it says about the ranges
* `Session.every_entry_comes_due_once`
-/

namespace BulletHell

/-- The table entries that a beat hands out. -/
def BeatInfo.spawns (b : BeatInfo) : List Nat :=
  List.range' b.firstSpawn (b.endSpawn - b.firstSpawn)

namespace Timeline

variable {τ α : Type}

/-- A stage that was started, and its beats up to the next start. -/
structure Chapter (τ : Type) where
  stage : Nat
  loopCount : Nat
  start : τ
  beats : List BeatInfo

/-- The events of a chapter. -/
def Chapter.events (c : Chapter τ) : List (TimelineEvent τ) :=
  .stageStarted c.stage c.loopCount c.start :: c.beats.map .beat

/-- The beats of a chapter hand out the table of its stage. -/
structure HandsOut (table : List SpawnEvent) (beats : List BeatInfo) : Prop where
  /-- The beats are numbered from zero, without gap or repetition. -/
  total : ∀ (k : Nat) (b : BeatInfo), beats[k]? = some b → b.total = k
  /-- The first range starts at the beginning of the table. -/
  first : ∀ b : BeatInfo, beats[0]? = some b → b.firstSpawn = 0
  /-- Each range starts where the one before it ends. -/
  adjacent : ∀ (k : Nat) (b b' : BeatInfo), beats[k]? = some b → beats[k + 1]? = some b' →
    b'.firstSpawn = b.endSpawn
  /-- No range runs backwards or past the end of the table. -/
  within : ∀ b ∈ beats, b.firstSpawn ≤ b.endSpawn ∧ b.endSpawn ≤ table.length
  /-- A range has exactly the entries of its beat. -/
  due : ∀ b ∈ beats, ∀ i, i ∈ b.spawns ↔ ∃ e, table[i]? = some e ∧ e.beat = b.total
  /-- Up to a beat, no entry was handed out twice. -/
  once : ∀ k, ((beats.take k).flatMap BeatInfo.spawns).Nodup
  /-- Up to a beat, exactly the entries were handed out that are not written for a later one. -/
  done : ∀ (k : Nat) (b : BeatInfo), beats[k]? = some b → ∀ i,
    i ∈ (beats.take (k + 1)).flatMap BeatInfo.spawns ↔ ∃ e, table[i]? = some e ∧ e.beat ≤ b.total

/-- The beat numbered `k` has the range between two places of the table. -/
structure Comes (stage : Stage τ) (k : Nat) (b : BeatInfo) : Prop where
  total : b.total = k
  first : b.firstSpawn = stage.entriesBefore k
  stop : b.endSpawn = stage.entriesBefore (k + 1)

/-- All beats of a chapter, each with its number. -/
def AllCome (stage : Stage τ) (beats : List BeatInfo) : Prop :=
  ∀ k b, beats[k]? = some b → Comes stage k b

theorem AllCome.append {stage : Stage τ} {beats : List BeatInfo} {b : BeatInfo}
    (h : AllCome stage beats) (hb : Comes stage beats.length b) : AllCome stage (beats ++ [b]) := by
  intro k b' hget
  rcases Nat.lt_or_ge k beats.length with hk | hk
  · rw [List.getElem?_append_left hk] at hget
    exact h k b' hget
  · rw [List.getElem?_append_right hk] at hget
    cases hk' : k - beats.length with
    | zero =>
      rw [hk'] at hget
      obtain rfl := Option.some.inj hget
      obtain rfl : k = beats.length := by omega
      exact hb
    | succ n =>
      rw [hk'] at hget
      cases hget

/-! ### Ranges between the places of a table -/

section Ranges

variable {stage : Stage τ} {beats : List BeatInfo} {b : BeatInfo} {k : Nat}

theorem Comes.mem_spawns (hordered : stage.Ordered) (h : Comes stage k b) (i : Nat) :
    i ∈ b.spawns ↔ ∃ e, stage.spawns[i]? = some e ∧ e.beat = b.total := by
  have hbelow := hordered.lt_entriesBefore_iff k i
  have hupto := hordered.lt_entriesBefore_iff (k + 1) i
  rw [BeatInfo.spawns, List.mem_range'_1, h.first, h.stop, h.total]
  constructor
  · rintro ⟨hge, hlt⟩
    have hlt : i < stage.entriesBefore (k + 1) := by omega
    obtain ⟨e, he, hbeat⟩ := hupto.mp hlt
    have hnot : ¬ e.beat < k := fun hbefore => by
      have := hbelow.mpr ⟨e, he, hbefore⟩
      omega
    exact ⟨e, he, by omega⟩
  · rintro ⟨e, he, hbeat⟩
    have hlt := hupto.mpr ⟨e, he, by omega⟩
    have hnot : ¬ i < stage.entriesBefore k := fun hi => by
      obtain ⟨e', he', hbefore⟩ := hbelow.mp hi
      obtain rfl := Option.some.inj (he.symm.trans he')
      omega
    omega

theorem range_append_range' {m n : Nat} (h : m ≤ n) :
    List.range m ++ List.range' m (n - m) = List.range n := by
  have happend := List.range'_append_1 (s := 0) (m := m) (n := n - m)
  rwa [Nat.zero_add, Nat.add_sub_of_le h, ← List.range_eq_range', ← List.range_eq_range']
    at happend

/-- Up to the beat numbered `k`, the ranges together are the places below that of beat `k`. -/
theorem AllCome.flatMap_spawns (hordered : stage.Ordered) (h : AllCome stage beats)
    (hk : k ≤ beats.length) :
    (beats.take k).flatMap BeatInfo.spawns = List.range (stage.entriesBefore k) := by
  induction k with
  | zero => simp [hordered.entriesBefore_zero]
  | succ k ih =>
    have hget : beats[k]? = some beats[k] := List.getElem?_eq_getElem hk
    have hb := h k beats[k] hget
    have hle := hordered.entriesBefore_add_due k
    have hnext : stage.entriesBefore k ≤ stage.entriesBefore (k + 1 : Nat) := by
      push_cast
      omega
    rw [List.take_add_one, hget, List.flatMap_append, ih (by omega), ← range_append_range' hnext]
    simp [BeatInfo.spawns, hb.first, hb.stop]

/-- **What the ranges amount to**, when each lies between two places of an ordered table. -/
theorem handsOut_of_comes (hordered : stage.Ordered) (h : AllCome stage beats) :
    HandsOut stage.spawns beats where
  total k b hget := (h k b hget).total
  first b hget := by
    rw [(h 0 b hget).first]
    exact hordered.entriesBefore_zero
  adjacent k b b' hget hget' := by
    rw [(h k b hget).stop, (h (k + 1) b' hget').first]
    rfl
  within b hb := by
    obtain ⟨k, hget⟩ := List.mem_iff_getElem?.mp hb
    have hle := hordered.entriesBefore_add_due k
    rw [(h k b hget).first, (h k b hget).stop]
    exact ⟨by omega, stage.entriesBefore_le _⟩
  due b hb := by
    obtain ⟨k, hget⟩ := List.mem_iff_getElem?.mp hb
    exact (h k b hget).mem_spawns hordered
  once k := by
    rcases Nat.le_total k beats.length with hk | hk
    · rw [h.flatMap_spawns hordered hk]
      exact List.nodup_range
    · rw [List.take_of_length_le hk, ← List.take_length (l := beats),
        h.flatMap_spawns hordered (Nat.le_refl _)]
      exact List.nodup_range
  done k b hget i := by
    have hk : k < beats.length := (List.getElem?_eq_some_iff.mp hget).1
    rw [h.flatMap_spawns hordered hk, List.mem_range, hordered.lt_entriesBefore_iff,
      (h k b hget).total]
    exact exists_congr fun e => and_congr_right fun _ => by push_cast; omega

end Ranges

/-! ### The chronicle of a session -/

namespace Session

variable {stages : List (Stage τ)} {s s' : Session τ α} {chapters : List (Chapter τ)}

/-- The chapters of a session up to now. The timeline is in the last one, unless it is in no
stage; the cursor and the counter are those of the first beat that has not come yet. -/
structure Chronicle (stages : List (Stage τ)) (s : Session τ α) (chapters : List (Chapter τ)) :
    Prop where
  events : s.events = chapters.flatMap Chapter.events
  comes : ∀ c ∈ chapters, ∃ stage, stages[c.stage]? = some stage ∧ AllCome stage c.beats
  current : ∀ i, s.timeline.stage = some i → ∃ past c stage, chapters = past ++ [c] ∧
    c.stage = i ∧ stages[i]? = some stage ∧ s.timeline.totalBeats + 1 = c.beats.length ∧
    s.timeline.cursor = stage.entriesBefore c.beats.length

namespace Chronicle

theorem stays (h : Chronicle stages s chapters) (hevents : s'.events = s.events)
    (hstage : s'.timeline.stage = s.timeline.stage)
    (htotal : s'.timeline.totalBeats = s.timeline.totalBeats)
    (hcursor : s'.timeline.cursor = s.timeline.cursor) : Chronicle stages s' chapters where
  events := hevents.trans h.events
  comes := h.comes
  current := by
    rw [hstage, htotal, hcursor]
    exact h.current

theorem leaves (h : Chronicle stages s chapters) (hevents : s'.events = s.events)
    (hstage : s'.timeline.stage = none) : Chronicle stages s' chapters where
  events := hevents.trans h.events
  comes := h.comes
  current i hi := by
    rw [hstage] at hi
    cases hi

/-- A stage that begins opens a chapter. -/
theorem begins (h : Chronicle stages s chapters) {i loopCount : Nat} {start : τ}
    {stage : Stage τ} (hordered : stage.Ordered)
    (hevents : s'.events = s.events ++ [.stageStarted i loopCount start])
    (hstage : stages[i]? = some stage) (hcurrent : s'.timeline.stage = some i)
    (htotal : s'.timeline.totalBeats = -1) (hcursor : s'.timeline.cursor = 0) :
    Chronicle stages s' (chapters ++ [⟨i, loopCount, start, []⟩]) where
  events := by
    rw [hevents, h.events, List.flatMap_append]
    rfl
  comes c hc := by
    rcases List.mem_append.mp hc with hin | hlast
    · exact h.comes c hin
    · obtain rfl := List.mem_singleton.mp hlast
      exact ⟨stage, hstage, fun k b hget => by cases hget⟩
  current j hj := by
    obtain rfl := Option.some.inj (hcurrent.symm.trans hj)
    refine ⟨chapters, _, stage, rfl, rfl, hstage, ?_, ?_⟩
    · rw [htotal]
      rfl
    · rw [hcursor]
      exact hordered.entriesBefore_zero.symm

/-- A beat joins the last chapter. -/
theorem beats (h : Chronicle stages s chapters) {i : Nat} {stage : Stage τ} {info : BeatInfo}
    (hordered : stage.Ordered) (hevents : s'.events = s.events ++ [.beat info])
    (hcurrent : s.timeline.stage = some i) (hstage : stages[i]? = some stage)
    (hcounts : Counts stage s.timeline info s'.timeline) :
    ∃ chapters', Chronicle stages s' chapters' := by
  obtain ⟨past, c, stage', rfl, hi, hstage', htotal, hcursor⟩ := h.current i hcurrent
  obtain rfl := Option.some.inj (hstage.symm.trans hstage')
  have hbeat : s.timeline.totalBeats + 1 = c.beats.length := htotal
  have hstop : info.endSpawn = stage.entriesBefore (c.beats.length + 1) := by
    rw [hcounts.stop, hcursor, hbeat]
    exact hordered.entriesBefore_add_due _
  have hcomes : Comes stage c.beats.length info :=
    ⟨hcounts.total.trans hbeat, hcounts.first.trans hcursor, hstop⟩
  refine ⟨past ++ [{ c with beats := c.beats ++ [info] }], ⟨?_, fun d hd => ?_, fun j hj => ?_⟩⟩
  · rw [hevents, h.events]
    simp [Chapter.events]
  · rcases List.mem_append.mp hd with hin | hlast
    · exact h.comes d (List.mem_append_left _ hin)
    · obtain rfl := List.mem_singleton.mp hlast
      obtain ⟨stage', hget, hall⟩ := h.comes c (List.mem_append_right _ (List.mem_singleton_self c))
      rw [hi, hstage] at hget
      obtain rfl := Option.some.inj hget
      exact ⟨stage, hi ▸ hstage, hall.append hcomes⟩
  · rw [hcounts.stage_eq, hcurrent] at hj
    obtain rfl := Option.some.inj hj
    refine ⟨past, _, stage, rfl, hi, hstage, ?_, ?_⟩
    · rw [hcounts.totalBeats_eq, hcomes.total, List.length_append]
      rfl
    · rw [hcounts.cursor_eq, hcomes.stop, List.length_append]
      rfl

variable [ClockTime τ] [AudioPlayer α τ]

/-- **One call** keeps the chronicle. -/
theorem call (hordered : ∀ stage ∈ stages, stage.Ordered) (h : Chronicle stages s chapters)
    (c : Call τ) : ∃ chapters', Chronicle stages (s.call stages c) chapters' := by
  obtain ⟨answer, hevents, hmoves⟩ := s.call_cases stages c
  cases hmoves with
  | stays hstage htotal hcursor =>
    rw [List.append_nil] at hevents
    exact ⟨chapters, h.stays hevents hstage htotal hcursor⟩
  | leaves hstage =>
    rw [List.append_nil] at hevents
    exact ⟨chapters, h.leaves hevents hstage⟩
  | begins hstage hcurrent htotal hcursor =>
    have hstageOrdered := hordered _ (List.mem_of_getElem? hstage)
    exact ⟨_, h.begins hstageOrdered hevents hstage hcurrent htotal hcursor⟩
  | beats hcurrent hstage hcounts =>
    have hstageOrdered := hordered _ (List.mem_of_getElem? hstage)
    exact h.beats hstageOrdered hevents hcurrent hstage hcounts

theorem run (hordered : ∀ stage ∈ stages, stage.Ordered) (h : Chronicle stages s chapters)
    (calls : List (Call τ)) : ∃ chapters', Chronicle stages (s.run stages calls) chapters' := by
  induction calls generalizing s chapters with
  | nil => exact ⟨chapters, h⟩
  | cons c calls ih =>
    obtain ⟨chapters', hcall⟩ := h.call hordered c
    exact ih hcall

end Chronicle

variable [ClockTime τ] [AudioPlayer α τ]

/-- **Every session has a chronicle**, at whatever readings of the clock it was called. -/
theorem exists_chronicle (hordered : ∀ stage ∈ stages, stage.Ordered) (leadIn : τ) (audio : α)
    (calls : List (Call τ)) :
    ∃ chapters, Chronicle stages ((new leadIn audio).run stages calls) chapters := by
  have hnew : Chronicle stages (new leadIn audio) [] :=
    ⟨rfl, fun c hc => (by cases hc), fun i hi => by cases hi⟩
  exact hnew.run hordered calls

end Session

/-! ### What the chronicle says -/

/-- The chapters account for a session and its spawn tables. -/
structure Accounts (stages : List (Stage τ)) (s : Session τ α) (chapters : List (Chapter τ)) :
    Prop where
  /-- The chapters are all that was answered. In particular no beat comes before a start. -/
  events : s.events = chapters.flatMap Chapter.events
  handsOut : ∀ c ∈ chapters, ∃ stage, stages[c.stage]? = some stage ∧
    HandsOut stage.spawns c.beats
  /-- A timeline in a stage is in the last chapter, and its cursor has passed exactly the entries
  up to the last beat. -/
  cursor : ∀ i, s.timeline.stage = some i → ∃ c stage, chapters.getLast? = some c ∧
    c.stage = i ∧ stages[i]? = some stage ∧ s.timeline.totalBeats + 1 = c.beats.length ∧
    s.timeline.cursor ≤ stage.spawns.length ∧
    ∀ j, j < s.timeline.cursor ↔
      ∃ e, stage.spawns[j]? = some e ∧ e.beat ≤ s.timeline.totalBeats

theorem Session.Chronicle.accounts {stages : List (Stage τ)} {s : Session τ α}
    {chapters : List (Chapter τ)} (hordered : ∀ stage ∈ stages, stage.Ordered)
    (h : Chronicle stages s chapters) : Accounts stages s chapters where
  events := h.events
  handsOut c hc := by
    obtain ⟨stage, hstage, hall⟩ := h.comes c hc
    have hmem : stage ∈ stages := List.mem_of_getElem? hstage
    exact ⟨stage, hstage, handsOut_of_comes (hordered stage hmem) hall⟩
  cursor i hi := by
    obtain ⟨past, c, stage, rfl, hc, hstage, htotal, hcursor⟩ := h.current i hi
    have hmem : stage ∈ stages := List.mem_of_getElem? hstage
    refine ⟨c, stage, List.getLast?_concat, hc, hstage, htotal, ?_, fun j => ?_⟩
    · rw [hcursor]
      exact stage.entriesBefore_le _
    · rw [hcursor, (hordered stage hmem).lt_entriesBefore_iff]
      exact exists_congr fun e => and_congr_right fun _ => by omega

namespace Session

/-- **Every entry of a spawn table comes due exactly once, on its own beat.** The events of any
session over compiled stages fall into chapters; the beats of a chapter hand out the table of its
stage from the first entry on, and the cursor stays with them. -/
theorem every_entry_comes_due_once [AudioPlayer α Float] {stages : List (Stage Float)}
    (hstages : ∀ stage ∈ stages, ∃ (config : StageConfig) (enemyId? : String → Option EnemyId)
      (powerup : String), config.compile enemyId? powerup = .ok stage)
    (leadIn : Float) (audio : α) (calls : List (Call Float)) :
    ∃ chapters, Accounts stages ((new leadIn audio).run stages calls) chapters := by
  have hordered : ∀ stage ∈ stages, stage.Ordered := fun stage hstage => by
    obtain ⟨config, enemyId?, powerup, hcompile⟩ := hstages stage hstage
    exact StageConfig.ordered_of_compile hcompile
  obtain ⟨chapters, h⟩ := exists_chronicle hordered leadIn audio calls
  exact ⟨chapters, h.accounts hordered⟩

/-- A written stage with two entries for beat 1 and one for beat 3. -/
def threeEntries : StageConfig where
  name := "stage"
  track := "track"
  bpm := 120
  spawns := [⟨1, 0, "orb", .none, false, none, 0, false⟩,
    ⟨1, 1, "orb", .none, false, none, 0, false⟩, ⟨3, 0, "orb", .none, false, none, 0, false⟩]

/-- The same stage, compiled. -/
def threeEntriesStage : Stage Float where
  name := "stage"
  track := "track"
  bpm := 120
  background := ""
  scrollSpeed := 0
  spawns := [⟨1, 0, .powerup, .none, false, none, false⟩,
    ⟨1, 1, .powerup, .none, false, none, false⟩, ⟨3, 0, .powerup, .none, false, none, false⟩]

theorem compile_threeEntries :
    threeEntries.compile (fun _ => none) "orb" = .ok threeEntriesStage := by
  rw [StageConfig.compile, if_pos (by decide)]
  rfl

/-- The stage played past its last entry, with a pause in between and one late call. -/
theorem every_entry_comes_due_once_of_threeEntries :
    threeEntries.compile (fun _ => none) "orb" = .ok threeEntriesStage ∧
      ∃ chapters, Accounts [threeEntriesStage]
        ((new 0.5 (HeadlessAudio.new 60)).run [threeEntriesStage]
          [.start 0, .advance 0.5, .advance 1, .pause 1, .resume 2, .advance 9, .advance 9])
        chapters := by
  refine ⟨compile_threeEntries, every_entry_comes_due_once (fun stage hstage => ?_) _ _ _⟩
  obtain rfl := List.mem_singleton.mp hstage
  exact ⟨threeEntries, fun _ => none, "orb", compile_threeEntries⟩

end Session

end Timeline

end BulletHell
