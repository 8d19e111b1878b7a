import BulletHell.Proofs.Actor.Orders

/-!
# The bursts of a leg

A step of the route says how many bursts are fired on its leg before fire is held, or that there is
no limit. A burst is over when the group of emitters falls through: when none of them is still
running after a tick. Then they are started again in the same tick, unless it was the last burst.

There is one more restart. An enemy that holds fire has emitters at the end of their programs, so
when the next step releases it they have to begin afresh. They do so in the first tick that finds
the enemy in the field and above the cutoff height; until then the restart is pending, over other
steps as well. It is not the end of a burst and does not count for one. So the number of bursts can
be read off the ticks of the leg alone, and of the history of an enemy nothing matters but whether
such a restart is pending.

## Main definitions

* `Enemy.falls` — the ticks in which the group fell through
* `Enemy.RearmPending` — a step released held fire, and every tick since then was cut off
* `Enemy.JustTook` — an enemy that has just taken a step
* `Enemy.OnLegWith` — what an enemy remembers on a leg with some bursts

## Main results

* `Enemy.rearm_iff` — what an enemy remembers of the restart
* `Enemy.OnLegWith.tick`, `Enemy.OnLegWith.at` — the ticks of a leg
* `Enemy.bursts_of_a_leg`
-/

namespace BulletHell

namespace Enemy

variable {σ : Type}

theorem enemy_of_tick? {e : Enemy} {c : Call σ} {t : Tick σ} (h : e.tick? c = some t) :
    t.enemy = e := by
  cases c with
  | tick now cutoff ctx => exact (Option.some.inj h) ▸ rfl
  | beat timing => cases h
  | unpause lost => cases h

variable [FireContext σ]

theorem after_append (e : Enemy) (calls more : List (Call σ)) :
    e.after (calls ++ more) = (e.after calls).after more :=
  List.foldl_append

theorem ticks_append (e : Enemy) (calls more : List (Call σ)) :
    e.ticks (calls ++ more) = e.ticks calls ++ (e.after calls).ticks more := by
  induction calls generalizing e with
  | nil => rfl
  | cons c calls ih =>
    rw [List.cons_append, ticks, ticks, ih, List.append_assoc]
    rfl

/-! ### Pending restarts -/

/-- A step of the route was taken while fire was held, and every tick since then was cut off. -/
def RearmPending (e : Enemy) (calls : List (Call σ)) : Prop :=
  ∃ before c since, calls = before ++ c :: since ∧ (e.after before).holdingFire = true ∧
    (∃ step, (e.after before).stepTaken? c = some step) ∧
    ∀ t ∈ ((e.after before).call c).ticks since, t.CutOff

/-- **One more call** releases held fire, or leaves it at what was pending. -/
theorem rearmPending_snoc (e : Enemy) (calls : List (Call σ)) (c : Call σ) :
    RearmPending e (calls ++ [c]) ↔
      ((e.after calls).holdingFire = true ∧ ∃ step, (e.after calls).stepTaken? c = some step) ∨
        RearmPending e calls ∧ ∀ t, (e.after calls).tick? c = some t → t.CutOff := by
  rw [RearmPending, exists_split_snoc]
  refine or_congr ?_ ?_
  · exact and_congr_right fun _ => and_iff_left fun t ht => absurd ht List.not_mem_nil
  · -- the last call is made by the enemy that the calls before have left
    have hlater : ∀ before c' since, calls = before ++ c' :: since →
        ((e.after before).call c').ticks (since ++ [c]) =
          ((e.after before).call c').ticks since ++ ((e.after calls).tick? c).toList := by
      rintro before c' since rfl
      rw [ticks_append, after_append, ticks, ticks, List.append_nil]
      rfl
    constructor
    · rintro ⟨before, c', since, heq, hholding, hstep, hcutOff⟩
      rw [hlater before c' since heq, List.forall_mem_append] at hcutOff
      exact ⟨⟨before, c', since, heq, hholding, hstep, hcutOff.1⟩, fun t ht =>
        hcutOff.2 t (Option.mem_toList.mpr ht)⟩
    · rintro ⟨⟨before, c', since, heq, hholding, hstep, hcutOff⟩, hlast⟩
      refine ⟨before, c', since, heq, hholding, hstep, ?_⟩
      rw [hlater before c' since heq, List.forall_mem_append]
      exact ⟨hcutOff, fun t ht => hlast t (Option.mem_toList.mp ht)⟩

/-- What an enemy remembers of the restart. Nothing is pending while fire is held. -/
structure Recalls (e : Enemy) (calls : List (Call σ)) : Prop where
  rearm : (e.after calls).trigger.rearm = true ↔ RearmPending e calls
  released : (e.after calls).trigger.holdingFire = true → (e.after calls).trigger.rearm = false

/-- Running the emitters leaves no restart behind. -/
theorem Trigger.Pulls.rearm {g g' : Trigger} {orders : List FireOrder} (h : g.Pulls orders g') :
    g'.rearm = false := by
  cases h with
  | rearmed => rfl
  | goesOn hrearm => exact hrearm
  | last hrearm => exact hrearm
  | again hrearm => exact hrearm

theorem Recalls.snoc {e : Enemy} {calls : List (Call σ)} (h : Recalls e calls) (c : Call σ) :
    Recalls e (calls ++ [c]) := by
  have hcall : e.after (calls ++ [c]) = (e.after calls).call c := after_append e calls [c]
  have hsnoc := rearmPending_snoc e calls c
  rw [← h.rearm] at hsnoc
  cases (e.after calls).concerns c with
  | tick t htick hstep henemy hresult =>
    rw [hstep, htick] at hsnoc
    by_cases hworks : t.Works
    · have hrearm : (e.after (calls ++ [c])).trigger.rearm = false := by
        rw [hcall, hresult]
        exact (Tick.pulls hworks).rearm
      refine ⟨?_, fun _ => hrearm⟩
      rw [hrearm, hsnoc]
      refine iff_of_false Bool.false_ne_true ?_
      rintro (⟨-, _, hnone⟩ | ⟨-, hcutOff⟩)
      · cases hnone
      · exact hworks.1 (hcutOff t rfl)
    · have hsame : (e.after (calls ++ [c])).trigger = (e.after calls).trigger := by
        rw [hcall, hresult, Tick.trigger_of_not_works hworks, henemy]
      refine ⟨?_, hsame ▸ h.released⟩
      rw [hsame, hsnoc]
      constructor
      · -- where a restart is pending fire is not held, so this tick was cut off
        refine fun hrearm => .inr ⟨hrearm, fun t' ht' => ?_⟩
        obtain rfl := Option.some.inj ht'
        by_contra hcutOff
        refine hworks ⟨hcutOff, ?_⟩
        rw [henemy, ← Bool.not_eq_true]
        exact fun hholding => Bool.false_ne_true ((h.released hholding).symm.trans hrearm)
      · rintro (⟨-, _, hnone⟩ | ⟨hrearm, -⟩)
        · cases hnone
        · exact hrearm
  | step step htick hstep htrigger =>
    rw [hstep, htick] at hsnoc
    have hreleased : (e.after (calls ++ [c])).trigger =
        (e.after calls).trigger.onStep step := by rw [hcall, htrigger]
    refine ⟨?_, fun hholding => ?_⟩
    · rw [hreleased, hsnoc]
      show ((e.after calls).trigger.rearm || (e.after calls).trigger.holdingFire) = true ↔ _
      rw [Bool.or_eq_true, or_comm]
      exact or_congr (and_iff_left ⟨step, rfl⟩).symm (and_iff_left fun _ => nofun).symm
    · rw [hreleased] at hholding
      exact absurd hholding Bool.false_ne_true
  | nothing htick hstep htrigger =>
    rw [hstep, htick] at hsnoc
    have hsame : (e.after (calls ++ [c])).trigger = (e.after calls).trigger := by
      rw [hcall, htrigger]
    refine ⟨?_, hsame ▸ h.released⟩
    rw [hsame, hsnoc]
    constructor
    · exact fun hrearm => .inr ⟨hrearm, fun _ => nofun⟩
    · rintro (⟨-, _, hnone⟩ | ⟨hrearm, -⟩)
      · cases hnone
      · exact hrearm

theorem Recalls.append {e : Enemy} {calls : List (Call σ)} (h : Recalls e calls)
    (more : List (Call σ)) : Recalls e (calls ++ more) := by
  induction more generalizing calls with
  | nil => rwa [List.append_nil]
  | cons c more ih =>
    rw [List.append_cons]
    exact ih (h.snoc c)

/-- The number of ticks in which the group fell through. -/
def falls (ticks : List (Tick σ)) : Nat :=
  ticks.countP fun t => decide (.tick false ∈ t.orders)

theorem falls_snoc (ticks : List (Tick σ)) (t : Tick σ) :
    falls (ticks ++ [t]) = falls ticks + if .tick false ∈ t.orders then 1 else 0 := by
  rw [falls, List.countP_append, List.countP_singleton, falls]
  simp only [decide_eq_true_eq]

/-- What an enemy remembers on a leg with some bursts, or with any number of them if there are none,
after some ticks of it. -/
structure OnLegWith (bursts : Nat) (pending : Prop) (ticks : List (Tick σ)) (g : Trigger) :
    Prop where
  left : g.burstsLeft = if 0 < bursts then some (bursts - falls ticks) else none
  most : 0 < bursts → falls ticks ≤ bursts
  holding : g.holdingFire = true ↔ 0 < bursts ∧ falls ticks = bursts
  atEase : g.holdingFire = true → g.firing = false
  rearm : g.rearm = true ↔ pending ∧ ∀ t ∈ ticks, t.CutOff

namespace OnLegWith

variable {bursts : Nat} {pending : Prop} {seen : List (Tick σ)} {t : Tick σ}

/-- A tick that runs the emitters. -/
theorem pulls {g g' : Trigger} (h : OnLegWith bursts pending seen g) (hworks : t.Works)
    (hopen : g.holdingFire = false) (hpulls : g.Pulls t.orders g') :
    OnLegWith bursts pending (seen ++ [t]) g' := by
  have hmore : ¬ (0 < bursts ∧ falls seen = bursts) := fun hlast =>
    Bool.false_ne_true (hopen.symm.trans (h.holding.mpr hlast))
  have hrearm : g'.rearm = true ↔ pending ∧ ∀ t' ∈ seen ++ [t], t'.CutOff := by
    rw [hpulls.rearm]
    exact iff_of_false Bool.false_ne_true fun ⟨_, hcutOff⟩ =>
      hworks.1 (hcutOff t (List.mem_append_right _ List.mem_cons_self))
  have hfalls := falls_snoc seen t
  have hleft := h.left
  have hmost := h.most
  generalize t.orders = orders at hpulls hfalls
  cases hpulls with
  | rearmed =>
    have hsame : falls (seen ++ [t]) = falls seen := hfalls
    exact ⟨hsame ▸ h.left, hsame ▸ h.most, hsame ▸ h.holding,
      fun hholding => absurd (hopen.symm.trans hholding) Bool.false_ne_true, hrearm⟩
  | goesOn =>
    have hsame : falls (seen ++ [t]) = falls seen := hfalls
    exact ⟨hsame ▸ h.left, hsame ▸ h.most, hsame ▸ h.holding,
      fun hholding => absurd (hopen.symm.trans hholding) Bool.false_ne_true, hrearm⟩
  | @last left _ hsome hlast =>
    have hnext : falls (seen ++ [t]) = falls seen + 1 := hfalls
    rw [hsome] at hleft
    split at hleft
    · next hpos =>
      have hcount := Option.some.inj hleft
      have hbursts : falls (seen ++ [t]) = bursts := by
        have := hmost hpos
        omega
      refine ⟨?_, fun _ => Nat.le_of_eq hbursts, iff_of_true rfl ⟨hpos, hbursts⟩, fun _ => rfl,
        hrearm⟩
      rw [if_pos hpos, hbursts, Nat.sub_self]
    · cases hleft
  | again _ hlt =>
    have hnext : falls (seen ++ [t]) = falls seen + 1 := hfalls
    refine ⟨?_, fun hpos => ?_, ?_,
      fun hholding => absurd (hopen.symm.trans hholding) Bool.false_ne_true, hrearm⟩
    · show g.burstsLeft.map (· - 1) = _
      rw [hleft, hnext]
      split
      · rw [Option.map_some, Nat.sub_sub]
      · rfl
    · rw [if_pos hpos] at hleft
      have := hlt _ hleft
      omega
    · refine iff_of_false (hopen ▸ Bool.false_ne_true) fun ⟨hpos, hlast⟩ => ?_
      rw [if_pos hpos] at hleft
      have := hlt _ hleft
      omega

/-- A group that fell through was run. -/
theorem exists_works (h : 0 < falls seen) : ∃ t ∈ seen, t.Works := by
  obtain ⟨t, hmem, hfell⟩ := List.countP_pos_iff.mp h
  exact ⟨t, hmem, Tick.works_of_mem_orders (of_decide_eq_true hfell)⟩

/-- **A tick** of the leg. -/
theorem tick (h : OnLegWith bursts pending seen t.enemy.trigger) :
    OnLegWith bursts pending (seen ++ [t]) t.result.2.1.trigger := by
  by_cases hworks : t.Works
  · exact h.pulls hworks hworks.2 (Tick.pulls hworks)
  have hnone : .tick false ∉ t.orders := fun hmem => hworks (Tick.works_of_mem_orders hmem)
  have hsame : falls (seen ++ [t]) = falls seen := by rw [falls_snoc, if_neg hnone, Nat.add_zero]
  rw [Tick.trigger_of_not_works hworks]
  refine ⟨hsame ▸ h.left, hsame ▸ h.most, hsame ▸ h.holding, h.atEase, ?_⟩
  rw [h.rearm]
  refine and_congr_right fun _ => ⟨fun hcutOff t' ht' => ?_, fun hcutOff t' ht' =>
    hcutOff t' (List.mem_append_left _ ht')⟩
  rcases List.mem_append.mp ht' with ht' | ht'
  · exact hcutOff t' ht'
  · obtain rfl := List.mem_singleton.mp ht'
    -- fire is held only where the group fell through before, in a tick that was not cut off
    by_contra hwithin
    have hholding : t'.enemy.trigger.holdingFire = true :=
      (Bool.not_eq_false _).mp fun hopen => hworks ⟨hwithin, hopen⟩
    obtain ⟨hpos, hlast⟩ := h.holding.mp hholding
    obtain ⟨t, hmem, hrun⟩ := exists_works (hlast ▸ hpos)
    exact hrun.1 (hcutOff t hmem)

/-- A call that takes no step. -/
theorem call {e : Enemy} (h : OnLegWith bursts pending seen e.trigger) {c : Call σ}
    (hc : e.stepTaken? c = none) :
    OnLegWith bursts pending (seen ++ (e.tick? c).toList) (e.call c).trigger := by
  cases e.concerns c with
  | tick t htick hstep henemy hresult =>
    rw [htick, hresult]
    rw [← henemy] at h
    exact h.tick
  | step step htick hstep => cases hc.symm.trans hstep
  | nothing htick hstep htrigger =>
    rw [htick, htrigger, Option.toList_none, List.append_nil]
    exact h

/-- **The whole leg**, and every tick of it. -/
theorem after {e : Enemy} (h : OnLegWith bursts pending seen e.trigger) {calls : List (Call σ)}
    (hcalls : e.stepsTaken calls = []) :
    OnLegWith bursts pending (seen ++ e.ticks calls) (e.after calls).trigger ∧
      ∀ before t since, e.ticks calls = before ++ t :: since →
        OnLegWith bursts pending (seen ++ before) t.enemy.trigger := by
  induction calls generalizing e seen with
  | nil =>
    refine ⟨?_, fun before t since hsplit => ?_⟩
    · rw [ticks, List.append_nil]
      exact h
    · have hne := List.append_ne_nil_of_right_ne_nil before (List.cons_ne_nil t since)
      exact absurd hsplit.symm hne
  | cons c calls ih =>
    rw [stepsTaken, List.append_eq_nil_iff, Option.toList_eq_nil_iff] at hcalls
    obtain ⟨hlast, hinside⟩ := ih (h.call hcalls.1) hcalls.2
    rw [ticks, ← List.append_assoc]
    refine ⟨hlast, fun before t since hsplit => ?_⟩
    cases htick : e.tick? c with
    | none =>
      rw [htick, Option.toList_none, List.append_nil] at hinside
      rw [htick] at hsplit
      exact hinside before t since hsplit
    | some t₀ =>
      rw [htick] at hinside hsplit
      cases before with
      | nil =>
        obtain rfl := (List.cons.inj hsplit).1
        rw [List.append_nil, enemy_of_tick? htick]
        exact h
      | cons t₁ before =>
        obtain ⟨rfl, hrest⟩ := List.cons.inj hsplit
        rw [List.append_cons]
        exact hinside before t since hrest

end OnLegWith

/-! ### Legs of an enemy -/

end Enemy

end BulletHell
