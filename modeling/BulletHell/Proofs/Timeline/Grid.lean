import BulletHell.Proofs.Timeline.Place
import Mathlib.Tactic.Linarith
import Mathlib.Tactic.Ring

/-!
# The beat grid

On clock readings that are exact, the beats of a stage lie on a grid: from the start of its music
on, one beat length apart. The timeline keeps no list of beats but two deadlines, and computes each
of them from the bar line by a formula of its own. Whichever way a beat is crossed, and however
late, both deadlines stay on the grid.

Readings of the clock are rational numbers here. Nothing is assumed of them: calls may come late,
early or out of order. What is assumed is that beats take time, in every stage.

## Why a bar is never cut short

The bar line is looked at whenever no beat of the bar is overdue. On the grid the next beat is never
behind the next bar line. So as long as beats of a bar are missing, a reading past the bar line is
past the next of them as well, and that one is crossed first.

## Main definitions

* `Stage.beatTime` — the grid
* `Timeline.OnGrid` — counters and deadlines are those of the grid
* `Timeline.Paces` — what advancing comes to on the grid

## Main results

* `OnGrid.crossBeat`, `OnGrid.crossBar`, `OnGrid.shift`, `OnGrid.roll` — what keeps a timeline on
  the grid
* `OnGrid.lt_of_not_due` — what it means that nothing is due
* `OnGrid.paces_advance` — one call
-/

namespace BulletHell

/-- The time of a beat of a stage, by its number and by the time of the first beat. -/
def Stage.beatTime (stage : Stage Rat) (start : Rat) (number : Int) : Rat :=
  start + number * stage.beatLength

theorem Stage.beatTime_add (stage : Stage Rat) (start lost : Rat) (number : Int) :
    stage.beatTime (start + lost) number = stage.beatTime start number + lost := by
  rw [beatTime, beatTime]
  ring

theorem Stage.beatTime_mono {stage : Stage Rat} (hpos : 0 < stage.beatLength) (start : Rat)
    {m n : Int} (h : m ≤ n) : stage.beatTime start m ≤ stage.beatTime start n := by
  have hcast : (m : Rat) ≤ n := by exact_mod_cast h
  have hmul : m * stage.beatLength ≤ n * stage.beatLength :=
    mul_le_mul_of_nonneg_right hcast hpos.le
  rw [beatTime, beatTime]
  linarith

namespace Timeline

open ClockTime

variable {α : Type} {stage : Stage Rat} {t t' : Timeline Rat} {now : Rat}

/-! ### Standing on the grid -/

/-- The timeline stands on the grid of a stage. The bar and the beat are those of the last beat, and
the deadlines are the times of the next bar line and of the next beat. Before the first beat of the
stage its number counts as -1; both deadlines are then the start. -/
structure OnGrid (stage : Stage Rat) (t : Timeline Rat) : Prop where
  beatLength : t.beatLength = stage.beatLength
  barLength : t.barLength = beatsPerBar * stage.beatLength
  counted : -1 ≤ t.totalBeats
  bar : t.bar = t.totalBeats / beatsPerBar
  beat : 0 ≤ t.totalBeats → t.beat = t.totalBeats % beatsPerBar
  nextBar : t.nextBar = stage.beatTime t.stageStart (beatsPerBar * (t.bar + 1))
  nextBeat : t.nextBeat = stage.beatTime t.stageStart (t.totalBeats + 1)

theorem due_iff (deadline now : Rat) : due deadline now = true ↔ deadline ≤ now := by
  simp [due, atMost]

namespace OnGrid

/-- The reading of the current bar line. -/
theorem barStart_eq (h : t.OnGrid stage) :
    t.barStart = stage.beatTime t.stageStart (beatsPerBar * t.bar) := by
  rw [barStart, h.nextBar, h.barLength, Stage.beatTime, Stage.beatTime]
  push_cast
  ring

theorem beatDue_iff (h : t.OnGrid stage) :
    t.beatDue now = true ↔
      0 ≤ t.bar ∧ t.beat + 1 < beatsPerBar ∧
        stage.beatTime t.stageStart (t.totalBeats + 1) ≤ now := by
  rw [beatDue, Bool.and_eq_true, Bool.and_eq_true, decide_eq_true_eq, decide_eq_true_eq, due_iff,
    h.nextBeat, and_assoc]

/-- A bar that is not full is in its first three beats. -/
theorem counted_of_bar (h : t.OnGrid stage) (hbar : 0 ≤ t.bar) : 0 ≤ t.totalBeats := by
  have hdiv := h.bar
  simp only [beatsPerBar] at hdiv
  omega

/-- At a bar line that is crossed, the bar is full or no bar has begun. Else a beat would be
overdue. -/
theorem full_of_not_beatDue (h : t.OnGrid stage) (hpos : 0 < stage.beatLength)
    (hbeat : ¬ t.beatDue now = true) (hbar : due t.nextBar now = true) :
    t.totalBeats + 1 = beatsPerBar * (t.bar + 1) := by
  have hcounted := h.counted
  have hdiv := h.bar
  rcases Int.lt_or_le t.totalBeats 0 with hlead | hbegun
  · simp only [beatsPerBar] at hdiv ⊢
    omega
  · have hmod := h.beat hbegun
    rw [due_iff, h.nextBar] at hbar
    have hfull : ¬ t.beat + 1 < beatsPerBar := by
      intro hroom
      have hbefore : t.totalBeats + 1 ≤ beatsPerBar * (t.bar + 1) := by
        simp only [beatsPerBar] at hdiv ⊢
        omega
      have hoverdue := (Stage.beatTime_mono hpos t.stageStart hbefore).trans hbar
      have hbegunBar : 0 ≤ t.bar := by
        simp only [beatsPerBar] at hdiv
        omega
      exact hbeat (h.beatDue_iff.mpr ⟨hbegunBar, hroom, hoverdue⟩)
    simp only [beatsPerBar] at hdiv hmod hfull ⊢
    omega

/-- If neither a beat nor a bar line is due, neither is the next beat of the grid. -/
theorem lt_of_not_due (h : t.OnGrid stage) (hbeat : ¬ t.beatDue now = true)
    (hbar : ¬ due t.nextBar now = true) :
    now < stage.beatTime t.stageStart (t.totalBeats + 1) := by
  have hcounted := h.counted
  have hdiv := h.bar
  rw [due_iff, h.nextBar, not_le] at hbar
  by_cases hfull : t.totalBeats + 1 = beatsPerBar * (t.bar + 1)
  · exact hfull ▸ hbar
  · -- beats of this bar are missing, so it has begun and its next beat was looked at
    have hbegun : 0 ≤ t.totalBeats := by
      simp only [beatsPerBar] at hdiv hfull
      omega
    have hmod := h.beat hbegun
    have hroom : 0 ≤ t.bar ∧ t.beat + 1 < beatsPerBar := by
      simp only [beatsPerBar] at hdiv hfull hmod ⊢
      omega
    rw [h.beatDue_iff] at hbeat
    exact not_le.mp fun hdue => hbeat ⟨hroom.1, hroom.2, hdue⟩

/-! ### What keeps a timeline on the grid -/

/-- A beat inside the bar. -/
theorem crossBeat (h : t.OnGrid stage) (hbeat : t.beatDue now = true) :
    (t.crossBeat stage).2.OnGrid stage ∧
      (t.crossBeat stage).2.stageStart = t.stageStart := by
  obtain ⟨hbar, hroom, -⟩ := h.beatDue_iff.mp hbeat
  have hbegun := h.counted_of_bar hbar
  have hdiv := h.bar
  have hmod := h.beat hbegun
  have hnumber : t.totalBeats = beatsPerBar * t.bar + t.beat := by
    rw [hdiv, hmod]
    exact (Int.mul_ediv_add_emod _ _).symm
  simp only [beatsPerBar] at hdiv hmod hroom
  refine ⟨⟨h.beatLength, h.barLength, ?_, ?_, fun _ => ?_, h.nextBar, ?_⟩, rfl⟩
  · show -1 ≤ t.totalBeats + 1
    omega
  · show t.bar = (t.totalBeats + 1) / 4
    omega
  · show t.beat + 1 = (t.totalBeats + 1) % 4
    omega
  · show t.barStart + ((t.beat + 1 + 1 : Int) : Rat) * t.beatLength =
      stage.beatTime t.stageStart (t.totalBeats + 1 + 1)
    rw [h.barStart_eq, h.beatLength, hnumber, Stage.beatTime, Stage.beatTime]
    push_cast
    ring

/-- A bar line. -/
theorem crossBar (h : t.OnGrid stage) (hpos : 0 < stage.beatLength)
    (hbeat : ¬ t.beatDue now = true) (hbar : due t.nextBar now = true) :
    (t.crossBar stage).2.OnGrid stage ∧
      (t.crossBar stage).2.stageStart = t.stageStart := by
  have hfull := h.full_of_not_beatDue hpos hbeat hbar
  have hcounted := h.counted
  have hline : t.nextBar + t.barLength =
      stage.beatTime t.stageStart (beatsPerBar * (t.bar + 1 + 1)) := by
    rw [h.nextBar, h.barLength, Stage.beatTime, Stage.beatTime]
    push_cast
    ring
  refine ⟨⟨h.beatLength, h.barLength, ?_, ?_, fun _ => ?_, hline, ?_⟩, rfl⟩
  · show -1 ≤ t.totalBeats + 1
    omega
  · show t.bar + 1 = (t.totalBeats + 1) / beatsPerBar
    simp only [beatsPerBar] at hfull ⊢
    omega
  · show -1 + 1 = (t.totalBeats + 1) % beatsPerBar
    simp only [beatsPerBar] at hfull ⊢
    omega
  · show t.nextBar + t.barLength - t.barLength + t.beatLength =
      stage.beatTime t.stageStart (t.totalBeats + 1 + 1)
    rw [hfull, h.nextBar, h.beatLength, Stage.beatTime, Stage.beatTime]
    push_cast
    ring

/-- A pause moves the whole grid. -/
theorem shift (h : t.OnGrid stage) (lost : Rat) : (t.shift lost).OnGrid stage where
  beatLength := h.beatLength
  barLength := h.barLength
  counted := h.counted
  bar := h.bar
  beat := h.beat
  nextBar := by
    show t.nextBar + lost = _
    rw [h.nextBar]
    exact (stage.beatTime_add _ _ _).symm
  nextBeat := by
    show t.nextBeat + lost = _
    rw [h.nextBeat]
    exact (stage.beatTime_add _ _ _).symm

/-- The grid has nothing to do with pauses as such. -/
theorem withState (h : t.OnGrid stage) (state : TimelineState Rat) :
    { t with state := state }.OnGrid stage :=
  ⟨h.beatLength, h.barLength, h.counted, h.bar, h.beat, h.nextBar, h.nextBeat⟩

/-- A stage that begins: no beat has come, and the grid starts with the music. -/
theorem roll [AudioPlayer α Rat] {stages : List (Stage Rat)} (t : Timeline Rat) (now : Rat)
    (audio : α) (hstage : stages[(t.successor stages.length).1]? = some stage) :
    (t.roll now stages audio).2.1.OnGrid stage ∧
      (t.roll now stages audio).2.1.stageStart = now + t.leadIn := by
  have hstart : now + t.leadIn = stage.beatTime (now + t.leadIn) 0 := by
    rw [Stage.beatTime]
    push_cast
    ring
  simp only [Timeline.roll, hstage]
  exact ⟨⟨rfl, rfl, Int.le_refl _, rfl, fun h => (by cases h), hstart, hstart⟩, trivial⟩

end OnGrid

/-! ### Advancing -/

section Advance

variable [AudioPlayer α Rat] {stages : List (Stage Rat)}

/-- What advancing comes to on the grid, with the answer and the timeline afterwards. -/
inductive Paces (stages : List (Stage Rat)) (t : Timeline Rat) (now : Rat) :
    Option (TimelineEvent Rat) → Timeline Rat → Prop where
  /-- Nothing happens; in an active timeline the next beat is still to come. -/
  | rests (hnext : t.state = .active → ∀ i stage, t.stage = some i → stages[i]? = some stage →
      now < stage.beatTime t.stageStart (t.totalBeats + 1)) : Paces stages t now none t
  /-- A stage begins. -/
  | begins {t' : Timeline Rat} {i loopCount : Nat} {start : Rat} {stage : Stage Rat}
      (hstage : stages[i]? = some stage) (hcurrent : t'.stage = some i) (hgrid : t'.OnGrid stage)
      (htotal : t'.totalBeats = -1) (hstart : t'.stageStart = start) :
      Paces stages t now (some (.stageStarted i loopCount start)) t'
  /-- The next beat comes, and not before its time. -/
  | beats {t' : Timeline Rat} {i : Nat} {stage : Stage Rat} {info : BeatInfo}
      (hcurrent : t.stage = some i) (hstage : stages[i]? = some stage)
      (hcurrent' : t'.stage = some i) (hgrid : t'.OnGrid stage)
      (hstart : t'.stageStart = t.stageStart) (hnumber : info.total = t.totalBeats + 1)
      (htold : t'.totalBeats = info.total ∧ t'.bar = info.bar ∧ t'.beat = info.beat)
      (hdue : stage.beatTime t.stageStart info.total ≤ now) :
      Paces stages t now (some (.beat info)) t'

/-- Rolling a stage. There is one to roll as long as there are stages. -/
theorem paces_roll (hstages : 0 < stages.length) (t u : Timeline Rat) (now : Rat) (audio : α) :
    Paces stages t now (u.roll now stages audio).1 (u.roll now stages audio).2.1 := by
  have hnext := List.getElem?_eq_getElem (u.successor_lt hstages)
  obtain ⟨hgrid, hstart⟩ := OnGrid.roll u now audio hnext
  rcases u.roll_eq now stages audio with h | ⟨stage, t', -, h, -, hcurrent, htotal, -⟩
  · have hanswer := congrArg Prod.fst h
    simp [roll, hnext] at hanswer
  · rw [h] at hgrid hstart ⊢
    exact .begins hnext hcurrent hgrid htotal hstart

/-- A run begins with a stage if there is any. -/
theorem start_cases (t : Timeline Rat) (now : Rat) (stages : List (Stage Rat)) (audio : α) :
    t.start now stages audio = (none, idle t.leadIn, audio) ∨
      Paces stages t now (t.start now stages audio).1 (t.start now stages audio).2.1 := by
  rw [start]
  split
  · exact .inl rfl
  · next hempty =>
    rw [List.isEmpty_iff] at hempty
    exact .inr (paces_roll (List.length_pos_iff.mpr hempty) t _ now audio)

/-- **Advancing** from the grid. -/
theorem OnGrid.paces_advance (hpos : 0 < stage.beatLength) {i : Nat} (hi : t.stage = some i)
    (hstage : stages[i]? = some stage) (h : t.OnGrid stage) (now : Rat) (audio : α) :
    Paces stages t now (t.advance now stages audio).1 (t.advance now stages audio).2.1 := by
  have hstages : 0 < stages.length := Nat.zero_lt_of_lt (List.getElem?_eq_some_iff.mp hstage).1
  rw [advance, hi]
  cases hstate : t.state with
  | idle => exact .rests fun hactive => by rw [hstate] at hactive; cases hactive
  | paused since => exact .rests fun hactive => by rw [hstate] at hactive; cases hactive
  | active =>
    simp only [hstage]
    split
    · exact paces_roll hstages t t now audio
    · split
      · next hbeat =>
        obtain ⟨hgrid, hstart⟩ := h.crossBeat hbeat
        obtain ⟨-, -, hdue⟩ := h.beatDue_iff.mp hbeat
        exact .beats hi hstage hi hgrid hstart rfl ⟨rfl, rfl, rfl⟩ hdue
      · next hbeat =>
        split
        · next hbar =>
          obtain ⟨hgrid, hstart⟩ := h.crossBar hpos hbeat hbar
          have hdue : stage.beatTime t.stageStart (t.totalBeats + 1) ≤ now := by
            rw [h.full_of_not_beatDue hpos hbeat hbar, ← h.nextBar]
            exact (due_iff _ _).mp hbar
          exact .beats hi hstage hi hgrid hstart rfl ⟨rfl, rfl, rfl⟩ hdue
        · next hbar =>
          refine .rests fun _ j stage' hj hstage' => ?_
          obtain rfl := Option.some.inj (hi.symm.trans hj)
          obtain rfl := Option.some.inj (hstage.symm.trans hstage')
          exact h.lt_of_not_due hbeat hbar

end Advance

end Timeline

end BulletHell
