import BulletHell.Proofs.Timeline.Session

/-!
# The place of the timeline

A timeline remembers its stage and a cursor by number, and an event tells of a stage and of table
entries in the same way. The numbers are good for the stages that the timeline was called with:
whatever call comes, the stage exists, the cursor stays within its table, and so do the entries
that a beat hands out.

## Main definitions

* `Timeline.Placed` — the numbers of a timeline
* `Timeline.Tellable` — the numbers of an event

## Main results

* `Timeline.Placed.moves` — any call, and its answer
-/

namespace BulletHell

namespace Timeline

variable {τ α : Type} {stages : List (Stage τ)} {t t' : Timeline τ}

/-- The timeline stands at a stage that exists, and within its table. -/
def Placed (stages : List (Stage τ)) (t : Timeline τ) : Prop :=
  ∀ i, t.stage = some i → ∃ stage, stages[i]? = some stage ∧ t.cursor ≤ stage.spawns.length

/-- An event is about a stage that exists, and hands out entries that exist. -/
def Tellable (stages : List (Stage τ)) (t : Timeline τ) : TimelineEvent τ → Prop
  | .stageStarted stage _ _ => stage < stages.length
  | .beat info => ∀ i, t.stage = some i →
      ∃ stage, stages[i]? = some stage ∧ info.endSpawn ≤ stage.spawns.length

theorem dueCount_le (stage : Stage τ) (cursor : Nat) (total : Int) :
    dueCount stage cursor total ≤ stage.spawns.length - cursor := by
  rw [dueCount, ← List.length_drop]
  exact (List.takeWhile_sublist _).length_le

/-- What a call makes of the timeline's place, and what it answers. -/
theorem Placed.moves {answer : List (TimelineEvent τ)} (h : t.Placed stages)
    (hmoves : Moves stages t answer t') :
    t'.Placed stages ∧ ∀ event ∈ answer, t'.Tellable stages event := by
  cases hmoves with
  | stays hstage _ hcursor =>
    refine ⟨fun i hi => ?_, fun event hevent => by cases hevent⟩
    rw [hcursor]
    exact h i (hstage ▸ hi)
  | leaves hstage =>
    refine ⟨fun i hi => ?_, fun event hevent => by cases hevent⟩
    rw [hstage] at hi
    cases hi
  | begins hstage hcurrent _ hcursor =>
    refine ⟨fun i hi => ?_, fun event hevent => ?_⟩
    · obtain rfl := Option.some.inj (hcurrent.symm.trans hi)
      exact ⟨_, hstage, hcursor ▸ Nat.zero_le _⟩
    · obtain rfl := List.mem_singleton.mp hevent
      exact (List.getElem?_eq_some_iff.mp hstage).1
  | @beats t' i stage info hcurrent hstage hcounts =>
    obtain ⟨stage', hstage', hcursor⟩ := h i hcurrent
    obtain rfl := Option.some.inj (hstage.symm.trans hstage')
    have hstop : info.endSpawn ≤ stage.spawns.length := by
      have hdue := dueCount_le stage t.cursor (t.totalBeats + 1)
      rw [hcounts.stop]
      omega
    have hplace : ∀ k, t'.stage = some k →
        ∃ stage, stages[k]? = some stage ∧ info.endSpawn ≤ stage.spawns.length := by
      intro k hk
      obtain rfl := Option.some.inj ((hcounts.stage_eq.trans hcurrent).symm.trans hk)
      exact ⟨stage, hstage, hstop⟩
    refine ⟨fun k hk => hcounts.cursor_eq ▸ hplace k hk, fun event hevent => ?_⟩
    obtain rfl := List.mem_singleton.mp hevent
    exact hplace

/-- The next stage exists if there is any. -/
theorem successor_lt {n : Nat} (hn : 0 < n) (t : Timeline τ) : (t.successor n).1 < n := by
  rw [successor]
  split
  · exact hn
  · split
    · assumption
    · exact hn

/-- A timeline that has no stage. -/
theorem Placed.idle [ClockTime τ] (leadIn : τ) : (Timeline.idle leadIn).Placed stages :=
  fun _ hi => by cases hi

end Timeline

end BulletHell
