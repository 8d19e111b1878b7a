import BulletHell.Proofs.World.OnScreen

/-!
# How long a leg lasts

An enemy is on a leg of its route for some beats. It hears every beat while it is on screen, and a
beat is heard only once all that comes with it is there. So an enemy hears the very beat that has
brought it, and its first leg is over one beat sooner than the route says: a leg of a single beat is
never travelled at all. Every other leg begins while a beat is heard, and has all its beats ahead.

## Main definitions

* `World.Rides` — an enemy stays on screen through some calls
* `World.oneStage` — no stage begins in some calls

## Main results

* `World.Rides.onLeg` — a leg lasts as long as its countdown
* `World.Rides.totals_eq` — beats of one stage follow each other
* `World.first_leg_is_a_beat_short`
-/

namespace BulletHell

namespace World

variable {α : Type} [AudioPlayer α Float] {s : World × α} {c : Call} {i : Nat} {e e' : Enemy}

/-! ### Some calls -/

/-- An enemy stays in its slot through some calls, in which beats of some totals are heard. It never
waits for a burst when a beat comes. -/
inductive Rides (i : Nat) : World × α → Enemy → List Call → List Int → Enemy → Prop where
  | rests {s : World × α} {e : Enemy} (here : ⟨i, e⟩ ∈ s.1.enemies.active) : Rides i s e [] [] e
  | goesOn {s : World × α} {e e' e'' : Enemy} {c : Call} {calls : List Call} {totals : List Int}
      (here : ⟨i, e⟩ ∈ s.1.enemies.active)
      (free : (beatHeard s c).isSome = true → e.waits = false)
      (later : Rides i (call s c) e' calls totals e'') :
      Rides i s e (c :: calls) ((beatHeard s c).toList ++ totals) e''

/-- No stage begins. -/
def oneStage : World × α → List Call → Bool
  | _, [] => true
  | s, c :: calls => !startsStage s c && oneStage (call s c) calls

namespace Rides

variable {e'' : Enemy} {calls : List Call} {totals : List Int} {steps : List RouteStep}
  {place : Nat} {left : Int}

theorem here (h : Rides i s e calls totals e') : ⟨i, e⟩ ∈ s.1.enemies.active := by
  cases h with
  | rests here => exact here
  | goesOn here => exact here

/-- Without a beat the leg stays the same. -/
theorem sameLeg (h : Rides i s e calls totals e') (hnodup : s.1.enemies.indices.Nodup)
    (hquiet : totals = []) : e.SameLeg e' := by
  induction h with
  | rests => exact .refl _
  | @goesOn s e e' e'' c calls totals here free later ih =>
    obtain ⟨hnone, hquiet⟩ := List.append_eq_nil_iff.mp hquiet
    obtain ⟨e₁, hmeets, hsame⟩ := meets_call hnodup here later.here
    rw [Option.toList_eq_nil_iff.mp hnone] at hmeets
    have hlater := ih ((indices_call s c).nodup_iff.mpr hnodup) hquiet
    exact (Enemy.SameLeg.trans hmeets.1 hsame).trans hlater

/-- **A leg lasts as long as its countdown.** -/
theorem onLeg (h : Rides i s e calls totals e') (hnodup : s.1.enemies.indices.Nodup)
    (hleg : e.bearing.OnLeg steps place left) (hleft : 0 < left) (hhigh : left ≤ 0x80000000) :
    (totals.length < left → e'.bearing.OnLeg steps place (left - totals.length)) ∧
      (totals.length = left → e'.bearing.Begins steps (place + 1)) := by
  induction h generalizing left with
  | rests =>
    refine ⟨fun _ => ?_, fun hlength => ?_⟩
    · rw [List.length_nil, Int.natCast_zero, Int.sub_zero]
      exact hleg
    · rw [List.length_nil] at hlength
      omega
  | @goesOn s e e' e'' c calls totals here free later ih =>
    have hnodup' := (indices_call s c).nodup_iff.mpr hnodup
    obtain ⟨e₁, hmeets, hsame⟩ := meets_call hnodup here later.here
    cases hbeat : beatHeard s c with
    | none =>
      rw [hbeat] at hmeets
      rw [Option.toList_none, List.nil_append]
      have hleg' : e'.bearing.OnLeg steps place left := by
        rw [Enemy.SameLeg.trans hmeets.1 hsame]
        exact hleg
      exact ih hnodup' hleg' hleft hhigh
    | some total =>
      rw [hbeat] at hmeets free
      obtain ⟨e₀, timing, ⟨hbearing, hwaits⟩, rfl⟩ := hmeets
      have hleg₀ : e₀.bearing.OnLeg steps place left := hbearing ▸ hleg
      have hfree : e₀.waits = false := hwaits.trans (free rfl)
      have hlength : (((some total).toList ++ totals).length : Int) = totals.length + 1 := by simp
      rw [hlength]
      by_cases hlast : 1 < left
      · have hleg' : e'.bearing.OnLeg steps place (left - 1) := by
          rw [hsame]
          exact Enemy.onBeat_of_lt hleg₀ hfree hlast hhigh timing
        obtain ⟨hlt, heq⟩ := ih hnodup' hleg' (by omega) (by omega)
        refine ⟨fun h => ?_, fun h => heq (by omega)⟩
        have hcount : left - (totals.length + 1) = left - 1 - totals.length := by omega
        rw [hcount]
        exact hlt (by omega)
      · refine ⟨fun h => by omega, fun h => ?_⟩
        have hbegins : e'.bearing.Begins steps (place + 1) := by
          rw [hsame]
          exact Enemy.onBeat_of_le hleg₀ hfree (by omega) (by omega) timing
        have hrest := later.sameLeg hnodup' (List.length_eq_zero_iff.mp (by omega))
        rw [hrest]
        exact hbegins

/-! ### The totals of the beats -/

/-- A beat is the next one of its stage. -/
theorem total_eq_of_beatHeard {total : Int} (hbeat : beatHeard s c = some total) :
    s.1.timeline.stage.isSome = true ∧ total = s.1.timeline.totalBeats + 1 ∧
      (call s c).1.timeline.totalBeats = total := by
  obtain ⟨x, hheard, htotal⟩ := Option.bind_eq_some_iff.mp hbeat
  have hmoves := moves_call s c
  rw [hheard] at hmoves
  obtain ⟨w, event, now⟩ := x
  cases event with
  | stageStarted => cases htotal
  | beat info =>
    obtain rfl := Option.some.inj htotal
    cases hmoves with
    | beats hcurrent _ hcounts =>
      exact ⟨Option.isSome_of_mem hcurrent, hcounts.total, hcounts.totalBeats_eq⟩

/-- Between beats the timeline stays where it is, or it leaves its stage. -/
theorem stage_of_quiet (hquiet : beatHeard s c = none) (hstage : startsStage s c = false) :
    (call s c).1.timeline.totalBeats = s.1.timeline.totalBeats ∧
        (call s c).1.timeline.stage = s.1.timeline.stage ∨
      (call s c).1.timeline.stage = none := by
  have hmoves := moves_call s c
  cases hheard : heard s c with
  | none =>
    rw [hheard] at hmoves
    cases hmoves with
    | stays hsame htotal => exact .inl ⟨htotal, hsame⟩
    | leaves hnone => exact .inr hnone
  | some x =>
    rw [beatHeard, hheard] at hquiet
    rw [startsStage, hheard] at hstage
    obtain ⟨w, event, now⟩ := x
    cases event with
    | stageStarted => cases hstage
    | beat => cases hquiet

/-- Off stage there are no beats. -/
theorem totals_of_offstage (h : Rides i s e calls totals e') (hone : oneStage s calls = true)
    (hoff : s.1.timeline.stage = none) : totals = [] := by
  induction h with
  | rests => rfl
  | @goesOn s e e' e'' c calls totals here free later ih =>
    obtain ⟨hstage, hone⟩ := Bool.and_eq_true_iff.mp hone
    cases hbeat : beatHeard s c with
    | some total =>
      obtain ⟨hon, -⟩ := total_eq_of_beatHeard hbeat
      rw [hoff] at hon
      cases hon
    | none =>
      rcases stage_of_quiet hbeat (by simpa using hstage) with ⟨-, hsame⟩ | hnone
      · exact ih hone (hsame.trans hoff)
      · exact ih hone hnone

/-- **The beats of one stage** follow each other. -/
theorem totals_eq (h : Rides i s e calls totals e') (hone : oneStage s calls = true) {k : Nat}
    {total : Int} (hk : totals[k]? = some total) : total = s.1.timeline.totalBeats + 1 + k := by
  induction h generalizing k with
  | rests => cases hk
  | @goesOn s e e' e'' c calls totals here free later ih =>
    obtain ⟨hstage, hone⟩ := Bool.and_eq_true_iff.mp hone
    cases hbeat : beatHeard s c with
    | some first =>
      obtain ⟨-, hfirst, hafter⟩ := total_eq_of_beatHeard hbeat
      rw [hbeat, Option.toList_some, List.singleton_append] at hk
      cases k with
      | zero =>
        obtain rfl := Option.some.inj hk
        rw [hfirst, Int.natCast_zero, Int.add_zero]
      | succ k =>
        have hlater := ih hone hk
        rw [hafter, hfirst] at hlater
        omega
    | none =>
      rw [hbeat, Option.toList_none, List.nil_append] at hk
      rcases stage_of_quiet hbeat (by simpa using hstage) with ⟨hsame, -⟩ | hnone
      · rw [← hsame]
        exact ih hone hk
      · rw [later.totals_of_offstage hone hnone] at hk
        cases hk

end Rides

/-! ### The first leg and the later ones -/

/-- **The first leg is a beat short.** Take any catalog, any calls of a session, and an enemy that
stays on screen through some further calls and never waits for a burst when a beat comes.

A leg of `n` beats, of one up to some two billion, that has just begun lasts until `n` further beats
were heard: before that the enemy is on its way to the target of the step, and with the last of them
it begins the next step, or the way out behind the last one. If the leg is the first one, begun in
the call that brought the enemy, it is all over after `n - 1` further beats, and at once for a leg
of one beat.

As long as no stage begins, the totals of the beats heard follow that of the beat before. -/
theorem first_leg_is_a_beat_short (catalog : Catalog) (audio : α) (before : List Call) :
    let s := play (new catalog) audio before
    (∀ {i : Nat} {e e' : Enemy} {calls : List Call} {totals : List Int} {steps : List RouteStep}
        {place : Nat} {step : RouteStep},
      Rides i s e calls totals e' → e.bearing.Begins steps place → steps[place]? = some step →
      0 < step.beats → step.beats < 0x80000000 →
      (totals.length < step.beats →
        e'.bearing.OnLeg steps place (step.beats - totals.length)) ∧
      (totals.length = step.beats → e'.bearing.Begins steps (place + 1))) ∧
    (∀ {c : Call} {m : DueEntry} {i : Nat} {e e' : Enemy} {calls : List Call} {totals : List Int}
        {steps : List RouteStep} {start : Nat} {step : RouteStep},
      m ∈ comesDue s c → m.Brings i → Rides i (call s c) e calls totals e' →
      m.entry.route = some ⟨steps, start⟩ → steps[start]? = some step →
      0 < step.beats → step.beats < 0x80000000 →
      (totals.length + 1 < step.beats →
        e'.bearing.OnLeg steps start (step.beats - 1 - totals.length)) ∧
      (totals.length + 1 = step.beats → e'.bearing.Begins steps (start + 1))) ∧
    ∀ {i : Nat} {e e' : Enemy} {calls : List Call} {totals : List Int},
      Rides i s e calls totals e' → oneStage s calls = true →
      ∀ {k : Nat} {total : Int}, totals[k]? = some total →
        total = s.1.timeline.totalBeats + 1 + k := by
  intro s
  have hnodup : s.1.enemies.indices.Nodup := nodup_play catalog audio before
  refine ⟨?_, ?_, fun hrides hone _ _ hk => hrides.totals_eq hone hk⟩
  · intro i e e' calls totals steps place step hrides hbegins hstep hpos hbound
    have hleg : e.bearing.OnLeg steps place step.beats := hbegins.onLeg hstep hbound
    obtain ⟨hlt, heq⟩ := hrides.onLeg hnodup hleg (by omega) (by omega)
    exact ⟨fun h => hlt (by omega), fun h => heq (by omega)⟩
  · intro c m i e e' calls totals steps start step hdue hbrings hrides hroute hstep hpos hbound
    have hnodup' := (indices_call s c).nodup_iff.mpr hnodup
    obtain ⟨stale, spawn, e₁, hspawn, ⟨e₀, timing, ⟨hbearing, hwaits⟩, rfl⟩, hsame⟩ :=
      hears_of_brings hnodup hdue hbrings hrides.here
    have hleg : e₀.bearing.OnLeg steps start step.beats := by
      rw [hbearing]
      exact (stale.begins_spawn (hspawn.trans hroute) m.timing).onLeg hstep hbound
    have hfree : e₀.waits = false := hwaits.trans (stale.waits_spawn spawn m.timing)
    by_cases hlast : 1 < step.beats
    · have hleft : e.bearing.OnLeg steps start (step.beats - 1) := by
        rw [hsame]
        exact Enemy.onBeat_of_lt hleg hfree (by omega) (by omega) timing
      obtain ⟨hlt, heq⟩ := hrides.onLeg hnodup' hleft (by omega) (by omega)
      exact ⟨fun h => hlt (by omega), fun h => heq (by omega)⟩
    · refine ⟨fun h => by omega, fun h => ?_⟩
      rw [hrides.sameLeg hnodup' (List.length_eq_zero_iff.mp (by omega)), hsame]
      exact Enemy.onBeat_of_le hleg hfree (by omega) (by omega) timing

/-- A drone that comes on the first beat, for a step of two beats and one of a single beat. -/
def twoSteps : GameConfig where
  settings := { stageLeadIn := 0 }
  shots := []
  enemies := [{ name := "drone", xCurve := .constant 0, yCurve := .constant 0 }]
  player := ⟨[[]]⟩
  stages := [⟨"stage", "track", 120, "", 0,
    [⟨"hold", [{ target := ⟨0, 2⟩, beats := 2 }, { target := ⟨0, 1⟩, beats := 1 }]⟩],
    [{ beat := 0, lane := 0, prefab := "drone", route := "hold" }]⟩]

/-- The same game, loaded. -/
def twoStepsCatalog : Catalog where
  settings := { stageLeadIn := 0 }
  shots := []
  enemies := [⟨"drone", 1, 0, [], [], [], .constant 0, .constant 0, []⟩]
  powerup := {}
  powerLevels := [[]]
  stages := [⟨"stage", "track", 120, "", 0,
    [⟨0, 0, .enemy ⟨0⟩, .none, false,
      some ⟨[{ target := ⟨0, 2⟩, beats := 2 }, { target := ⟨0, 1⟩, beats := 1 }], 0⟩, false⟩]⟩]
  refused := []

theorem ofConfig_twoSteps : Catalog.ofConfig twoSteps = .ok twoStepsCatalog :=
  rfl

/-- The game has started, and then its first three beats have come. -/
def twoStepsStarted : World × HeadlessAudio Float :=
  play (new twoStepsCatalog) (.new 30) [.startGame 0]

def droneBrought : World × HeadlessAudio Float :=
  call twoStepsStarted (.tick {} 0 0.02)

def droneTurned : World × HeadlessAudio Float :=
  call droneBrought (.tick {} 0.5 0.02)

def droneLeaves : World × HeadlessAudio Float :=
  call droneTurned (.tick {} 1 0.02)

/-- The drone comes on the first beat, takes its second step on the next one, and leaves on the one
after that: the step of two beats has had one beat, and that of a single beat has had one, too. -/
theorem first_leg_is_a_beat_short_of_twoSteps :
    Catalog.ofConfig twoSteps = .ok twoStepsCatalog ∧
      ∃ steps e e' e'', steps.map RouteStep.beats = [2, 1] ∧
        (⟨0, e⟩ ∈ droneBrought.1.enemies.active ∧ e.bearing.OnLeg steps 0 1 ∧
          droneBrought.1.timeline.totalBeats = 0) ∧
        (⟨0, e'⟩ ∈ droneTurned.1.enemies.active ∧ e'.bearing.Begins steps 1 ∧
          droneTurned.1.timeline.totalBeats = 1) ∧
        ⟨0, e''⟩ ∈ droneLeaves.1.enemies.active ∧ e''.bearing.Begins steps 2 ∧
          droneLeaves.1.timeline.totalBeats = 2 := by
  obtain ⟨m, hdue⟩ : ∃ m, comesDue twoStepsStarted (.tick {} 0 0.02) = [m] :=
    List.length_eq_one_iff.mp (by decide +kernel)
  have hm : m ∈ comesDue twoStepsStarted (.tick {} 0 0.02) := hdue ▸ List.mem_singleton_self m
  have hbrings : m.Brings 0 := by
    have h : ∀ m ∈ comesDue twoStepsStarted (.tick {} 0 0.02), m.Brings 0 := by decide +kernel
    exact h m hm
  obtain ⟨⟨steps, start⟩, hroute, hsteps⟩ : ∃ route, m.entry.route = some route ∧
      (route.start, route.steps.map (·.beats)) = (0, [2, 1]) := by
    have h : (comesDue twoStepsStarted (.tick {} 0 0.02)).map (fun m =>
        m.entry.route.map fun route => (route.start, route.steps.map (·.beats))) =
        [some (0, [2, 1])] := by decide +kernel
    rw [hdue] at h
    exact Option.map_eq_some_iff.mp (List.singleton_inj.mp h)
  obtain ⟨rfl, hbeats⟩ := Prod.mk.inj hsteps
  obtain ⟨first, rest, rfl, hfirst, htail⟩ := List.map_eq_cons_iff.mp hbeats
  obtain ⟨second, rest, rfl, hsecond, -⟩ := List.map_eq_cons_iff.mp htail
  have hseen : ∀ {s : World × HeadlessAudio Float}, s.1.enemies.active.map
      (fun slot => (slot.index, slot.item.waits)) = [(0, false)] →
      ∃ e, ⟨0, e⟩ ∈ s.1.enemies.active ∧ e.waits = false := by
    intro s h
    obtain ⟨⟨i, e⟩, hmem, hslot⟩ := List.mem_map.mp (h ▸ List.mem_singleton_self (0, false))
    obtain ⟨rfl, hfree⟩ := Prod.mk.inj hslot
    exact ⟨e, hmem, hfree⟩
  obtain ⟨e, he, hfree⟩ := hseen (s := droneBrought) (by decide +kernel)
  obtain ⟨e', he', hfree'⟩ := hseen (s := droneTurned) (by decide +kernel)
  obtain ⟨e'', he'', -⟩ := hseen (s := droneLeaves) (by decide +kernel)
  have hrest : Rides 0 droneBrought e [] [] e := .rests he
  have hrest' : Rides 0 droneTurned e' [] [] e' := .rests he'
  have hrest'' : Rides 0 droneLeaves e'' [] [] e'' := .rests he''
  have hto : Rides 0 droneBrought e [.tick {} 0.5 0.02] [1] e' := by
    have hrides := Rides.goesOn he (fun _ => hfree) hrest'
    rwa [show beatHeard droneBrought (.tick {} 0.5 0.02) = some 1 by decide +kernel] at hrides
  have hfro : Rides 0 droneTurned e' [.tick {} 1 0.02] [2] e'' := by
    have hrides := Rides.goesOn he' (fun _ => hfree') hrest''
    rwa [show beatHeard droneTurned (.tick {} 1 0.02) = some 2 by decide +kernel] at hrides
  obtain ⟨-, hbrought, -⟩ :=
    first_leg_is_a_beat_short twoStepsCatalog (HeadlessAudio.new 30) [.startGame 0]
  have hturned := first_leg_is_a_beat_short twoStepsCatalog (HeadlessAudio.new 30)
    [.startGame 0, .tick {} 0 0.02, .tick {} 0.5 0.02]
  have hplay : play (new twoStepsCatalog) (HeadlessAudio.new 30)
      [.startGame 0, .tick {} 0 0.02, .tick {} 0.5 0.02] = droneTurned := by
    simp only [play, List.foldl, droneTurned, droneBrought, twoStepsStarted]
  rw [hplay] at hturned
  obtain ⟨hlater, -, -⟩ := hturned
  have hon := (hbrought hm hbrings hrest hroute rfl (by omega) (by omega)).1
    (by rw [hfirst]; decide)
  have htaken := (hbrought hm hbrings hto hroute rfl (by omega) (by omega)).2
    (by rw [hfirst]; rfl)
  have hleft := (hlater hfro htaken rfl (by omega) (by omega)).2 (by rw [hsecond]; rfl)
  rw [hfirst] at hon
  exact ⟨ofConfig_twoSteps, _, e, e', e'', hbeats, ⟨he, hon, by decide +kernel⟩,
    ⟨he', htaken, by decide +kernel⟩, he'', hleft, by decide +kernel⟩

end World

end BulletHell
