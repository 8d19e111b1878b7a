import BulletHell.Proofs.Timeline.Place
import BulletHell.Proofs.World.Guarded
import BulletHell.Proofs.World.Known

/-!
# Guarded play does not fail

Every guarded operation does what the operation does, as long as the catalog is resolved, what is
active is known to it, and the timeline stands at a stage that exists and within its table. The
guards of an operation are passed one after the other, so what is known has to be carried along
from phase to phase.

Emitters are dealt with at once. They fire alike under watch, and leave no mark if they fire what
the catalog has.

## Main results

* `World.onTimelineEvent?_eq`, `World.tickEnemies?_eq`, `World.tickPlayer?_eq`,
  `World.resolveHits?_eq` — the phases of a tick
* `World.goOn?_eq`, `World.startGame?_eq` — the rest of a tick, and the beginning of a run
-/

namespace BulletHell

/-- A guard that holds is passed. -/
theorem guard_pos {p : Prop} [Decidable p] (h : p) : (guard p : Option Unit) = some () :=
  if_pos h

/-! ### The timeline -/

namespace Timeline

open ClockTime

variable {τ α : Type} [ClockTime τ] [AudioPlayer α τ] {stages : List (Stage τ)}

theorem roll?_eq (hstages : stages ≠ []) (t : Timeline τ) (now : τ) (audio : α) :
    t.roll? now stages audio = some (t.roll now stages audio) := by
  rw [roll?, guard_pos (t.successor_lt (List.length_pos_iff.mpr hstages))]
  rfl

theorem advance?_eq (hstages : stages ≠ []) {t : Timeline τ} (h : t.Placed stages) (now : τ)
    (audio : α) : t.advance? now stages audio = some (t.advance now stages audio) := by
  cases hstate : t.state with
  | active =>
    cases hi : t.stage with
    | none => rw [advance?, hstate, hi]
    | some i =>
      obtain ⟨stage, hstage, -⟩ := h i hi
      have hlt : i < stages.length := (List.getElem?_eq_some_iff.mp hstage).1
      rw [advance?, hstate, hi]
      by_cases hdue : due t.nextStage now = true
      · refine (if_pos hdue).trans ?_
        rw [roll?_eq hstages, advance]
        simp only [hstate, hi, hdue, if_true]
      · refine (if_neg hdue).trans ?_
        rw [guard_pos hlt]
        rfl
  | idle => rw [advance?, hstate]
  | paused since => rw [advance?, hstate]

theorem start?_eq (t : Timeline τ) (now : τ) (stages : List (Stage τ)) (audio : α) :
    t.start? now stages audio = some (t.start now stages audio) := by
  rw [start?]
  split
  · rfl
  · next hstages =>
    rw [roll?_eq fun hnil => hstages (List.isEmpty_iff.mpr hnil), start, if_neg hstages]

end Timeline

/-! ### Hits -/

namespace Skirmish

variable {s : Skirmish} {e : Enemy} {toll : Toll}

theorem wound?_eq (htoll : toll.fire.archetypes = s.catalog.shots) (h : s.catalog.KnowsEnemy e)
    (archetype : EnemyArchetype) (damage : Float32) :
    s.wound? toll e archetype damage = some (s.wound toll e archetype damage) := by
  have hkilled : s.catalog.KnowsEnemy (e.takeDamage damage).2 := h.of_eq rfl rfl rfl
  have hfits : (e.takeDamage damage).2.fits = true := decide_eq_true hkilled.fits
  have hclean : ((Watch.on toll.fire).require (e.takeDamage damage).2.fits).Clean s.catalog.shots :=
    (Watch.clean_on htoll).require hfits
  have hanswered := Enemy.fireRevenge_course (Watch.course s.catalog.shots) hkilled.fires
    ((Watch.on toll.fire).require (e.takeDamage damage).2.fits) hclean
  have hwatch : ((Watch.on toll.fire).require (e.takeDamage damage).2.fits).fire = toll.fire := rfl
  have hfire := Enemy.fireRevenge_alike Watch.alike hwatch (e.takeDamage damage).2
  simp only [wound?, wound]
  split
  · rfl
  · split
    · rfl
    · split
      · rw [hanswered.result?, hfire]
        rfl
      · rfl

theorem engage?_eq (htoll : toll.fire.archetypes = s.catalog.shots) (h : s.catalog.KnowsEnemy e) :
    s.engage? toll e = some (s.engage toll e) := by
  obtain ⟨archetype, hknown⟩ := h.exists_archetype
  simp only [engage?, engage, hknown, Option.bind_eq_bind, Option.bind_some]
  refine wound?_eq ?_ h _ _
  exact htoll

end Skirmish

/-- A search does not fail if no test fails. -/
theorem anyM_eq_any {β : Type} {test : β → Bool} {test? : β → Option Bool} {xs : List β}
    (h : ∀ x ∈ xs, test? x = some (test x)) : xs.anyM test? = some (xs.any test) := by
  induction xs with
  | nil => rfl
  | cons x xs ih =>
    have hrest := ih fun x hx => h x (List.mem_cons_of_mem _ hx)
    rw [List.anyM, h x List.mem_cons_self, List.any_cons]
    cases htest : test x with
    | true => simp
    | false => simpa using hrest

namespace World

variable {w : World}

theorem resolveEnemies?_eq (h : w.Known) : w.resolveEnemies? = some w.resolveEnemies := by
  have hengage : ∀ (toll : Toll) (e : Enemy), toll.fire.archetypes = w.catalog.shots →
      w.catalog.KnowsEnemy e →
        w.skirmish.engage? toll e = some (w.skirmish.engage toll e) ∧
          (w.skirmish.engage toll e).2.2.fire.archetypes = w.catalog.shots := by
    intro toll e htoll he
    obtain ⟨launches, hexchange, -⟩ := w.skirmish.exchange_engage toll e
    exact ⟨Skirmish.engage?_eq htoll he, hexchange.archetypes.trans htoll⟩
  have harmed : (w.fireControl w.livingPlayer 0).archetypes = w.catalog.shots := rfl
  rw [resolveEnemies?, Pool.trySweep_eq hengage w.enemies h.enemies harmed]
  rfl

theorem bodyContact?_eq (h : w.Known) : w.bodyContact? = some w.bodyContact := by
  refine anyM_eq_any fun enemy henemy => ?_
  obtain ⟨slot, hslot, rfl⟩ := List.mem_map.mp henemy
  obtain ⟨archetype, hknown⟩ := (h.enemies slot hslot).exists_archetype
  simp only [hknown]
  rfl

theorem findHit?_eq (h : w.Known) : w.findHit? = some w.findHit := by
  have hbody : ∀ shots : ShotPools, { w with shots := shots }.bodyContact? =
      some { w with shots := shots }.bodyContact :=
    fun shots => bodyContact?_eq (h.of_eq rfl rfl rfl)
  simp only [findHit?, findHit]
  split
  · rfl
  · split
    · rfl
    · rw [hbody]
      rfl

theorem resolvePlayer?_eq (h : w.Known) : w.resolvePlayer? = some w.resolvePlayer := by
  simp only [resolvePlayer?, resolvePlayer]
  split
  · rfl
  · rw [findHit?_eq h]
    rfl

theorem resolveHits?_eq (h : w.Known) : w.resolveHits? = some w.resolveHits := by
  rw [resolveHits?, resolveEnemies?_eq h]
  exact resolvePlayer?_eq h.resolveEnemies

/-! ### Stage events and spawns -/

theorem dispatchSpawn?_eq {event : SpawnEvent}
    (h : ∀ id, event.target = .enemy id → Catalog.HasEnemy w.catalog.enemies id)
    (timing : LegTiming) :
    w.dispatchSpawn? timing event = some (w.dispatchSpawn timing event) := by
  rw [dispatchSpawn?]
  by_cases hpermitted : event.condition.permits w.countedEnemies w.carryOver = true
  · refine (if_pos hpermitted).trans ?_
    cases htarget : event.target with
    | powerup => rfl
    | enemy id =>
      have hplace : (guard (id.index < w.catalog.enemies.length) : Option Unit) = some () :=
        guard_pos (h id htarget)
      exact congrArg (·.bind fun _ => some (w.dispatchSpawn timing event)) hplace
  · exact if_neg hpermitted

/-- Entries that are looked up one by one are those of the range. -/
theorem foldlM_range' {σ β : Type} {xs : List β} {step? : σ → Nat → Option σ} {step : σ → β → σ}
    {I : σ → Prop}
    (hstep : ∀ s i x, I s → xs[i]? = some x → step? s i = some (step s x) ∧ I (step s x))
    {stop : Nat} (hstop : stop ≤ xs.length) (first : Nat) {s : σ} (hs : I s) :
    (List.range' first (stop - first)).foldlM step? s =
      some (((xs.take stop).drop first).foldl step s) := by
  -- on the number of entries that are left, since the range grows from its front
  induction hn : stop - first generalizing first s with
  | zero =>
    have hempty : (xs.take stop).drop first = [] := by
      rw [List.drop_eq_nil_iff, List.length_take]
      omega
    rw [hempty]
    rfl
  | succ n ih =>
    have hfirst : first < (xs.take stop).length := by
      rw [List.length_take]
      omega
    have hget : xs[first]? = some (xs.take stop)[first] := by
      rw [List.getElem_take]
      exact List.getElem?_eq_getElem (by omega)
    obtain ⟨hsome, hnext⟩ := hstep s first _ hs hget
    rw [List.drop_eq_getElem_cons hfirst, List.range'_succ, List.foldlM_cons, hsome]
    exact ih (first + 1) hnext (by omega)

theorem dispatchDue?_eq (hc : w.catalog.Resolved) {info : BeatInfo}
    (htable : ∀ i, w.timeline.stage = some i →
      ∃ stage, w.catalog.stages[i]? = some stage ∧ info.endSpawn ≤ stage.spawns.length)
    (timing : LegTiming) :
    w.dispatchDue? info timing = some ((w.dueSpawns info).foldl (dispatchSpawn timing) w) := by
  rw [dispatchDue?, dueSpawns]
  cases hi : w.timeline.stage with
  | none => rfl
  | some i =>
    obtain ⟨stage, hstage, hstop⟩ := htable i hi
    simp only [Option.bind_some, hstage]
    refine foldlM_range' (I := Keeps w) ?_ hstop info.firstSpawn (.refl w)
    intro w' entry event hw' hevent
    refine ⟨?_, hw'.trans (keeps_dispatchSpawn timing w' event)⟩
    have htarget : ∀ id, event.target = .enemy id → Catalog.HasEnemy w'.catalog.enemies id := by
      rw [hw'.catalog]
      exact hc.stages stage (List.mem_of_getElem? hstage) event (List.mem_of_getElem? hevent)
    rw [dispatchAt?, hw'.catalog, hstage, Option.bind_eq_bind, Option.bind_some, hevent]
    exact dispatchSpawn?_eq htarget timing

theorem broadcastBeat?_eq (h : w.Known) (now : Float) :
    w.broadcastBeat? now = some (w.broadcastBeat now) := by
  have henemies : w.enemies.items.all Enemy.fits = true := by
    refine List.all_eq_true.mpr fun enemy henemy => ?_
    obtain ⟨slot, hslot, rfl⟩ := List.mem_map.mp henemy
    exact decide_eq_true (h.enemies slot hslot).fits
  have hplayer : w.player.fits = true := decide_eq_true h.player.fits
  rw [broadcastBeat?, guard_pos henemies, guard_pos hplayer]
  rfl

theorem onTimelineEvent?_eq (h : w.Known) (hc : w.catalog.Resolved)
    {event : TimelineEvent Float} (htell : w.timeline.Tellable w.catalog.stages event)
    (now : Float) : w.onTimelineEvent? event now = some (w.onTimelineEvent event now) := by
  cases event with
  | stageStarted stage loopCount start =>
    have hplace : stage < w.catalog.stages.length := htell
    rw [onTimelineEvent?, guard_pos hplace]
    rfl
  | beat info =>
    have hkeeps := w.keeps_announceBeat info
    have htable := htell
    rw [Timeline.Tellable, ← hkeeps.timeline, ← hkeeps.catalog] at htable
    rw [← hkeeps.catalog] at hc
    have hspawned := (h.announceBeat info).dispatchSpawns hc
      ((w.announceBeat info).legTiming now) ((w.announceBeat info).dueSpawns info)
    simp only [onTimelineEvent?, dispatchDue?_eq hc htable, Option.bind_eq_bind, Option.bind_some]
    exact broadcastBeat?_eq hspawned now

/-! ### Ticks -/

theorem tickEnemies?_eq (h : w.Known) (now : Float) :
    w.tickEnemies? now = some (w.tickEnemies now) := by
  have hon : (Watch.on (w.fireControl w.livingPlayer 0)).fire = w.fireControl w.livingPlayer 0 :=
    rfl
  have hvisit : ∀ {fire : FireControl} {watch : Watch}, watch.fire = fire → ∀ enemy : Enemy,
      ∃ watch', enemy.tick now w.catalog.settings.fireCutoffHeight (watch.require enemy.fits) =
          ((enemy.tick now w.catalog.settings.fireCutoffHeight fire).1,
            (enemy.tick now w.catalog.settings.fireCutoffHeight fire).2.1, watch') ∧
        watch'.fire = (enemy.tick now w.catalog.settings.fireCutoffHeight fire).2.2 := by
    intro fire watch hwatch enemy
    have hrequired : (watch.require enemy.fits).fire = fire := hwatch
    exact Enemy.tick_alike Watch.alike hrequired enemy now _
  -- the watch sees the same enemies in the same states, whether or not it leaves a mark
  obtain ⟨watch, hswept, hfire⟩ := Pool.sweep_alike
    (R := fun (f : FireControl) (watch : Watch) => watch.fire = f) hvisit hon w.enemies
  -- it leaves none, because every enemy is known when its turn comes and after it
  have hclean := (Pool.sweep_course (P := w.catalog.KnowsEnemy)
    (R := fun watch watch' : Watch => watch.Clean w.catalog.shots → watch'.Clean w.catalog.shots)
    (fun _ hclean => hclean) (fun h h' hclean => h' (h hclean))
    (fun watch enemy =>
      enemy.tick now w.catalog.settings.fireCutoffHeight (watch.require enemy.fits))
    (fun watch enemy henemy => by
      obtain ⟨hnext, hwatch⟩ := henemy.tick (Watch.course w.catalog.shots) now
        w.catalog.settings.fireCutoffHeight (watch.require enemy.fits)
      exact ⟨hnext, fun hclean => hwatch (hclean.require (decide_eq_true henemy.fits))⟩)
    w.enemies h.enemies (.on (w.fireControl w.livingPlayer 0))).2 (Watch.clean_on rfl)
  rw [hswept] at hclean
  simp only [tickEnemies?, hswept, hclean.result?, Option.bind_eq_bind, Option.bind_some, hfire]
  rfl

theorem workGate?_eq (h : w.Known) (fire : Bool) : w.workGate? fire = some (w.workGate fire) := by
  have hfits : w.player.fits = true := decide_eq_true h.player.fits
  have hready : ((Watch.on (w.fireControl w.nearestEnemy 180)).require w.player.fits).Clean
      w.catalog.shots := (Watch.clean_on (f := w.fireControl w.nearestEnemy 180) rfl).require hfits
  have hwatch : ((Watch.on (w.fireControl w.nearestEnemy 180)).require w.player.fits).fire =
      w.fireControl w.nearestEnemy 180 := rfl
  obtain ⟨watch, hfired, hfire⟩ :=
    Player.handleFire_alike Watch.alike hwatch w.player fire w.catalog.settings.player
  have hclean := (h.player.handleFire (Watch.course w.catalog.shots) fire
    w.catalog.settings.player _).2 hready
  rw [hfired] at hclean
  simp only [workGate?, hfired, hclean.result?, Option.bind_eq_bind, Option.bind_some, hfire]
  rfl

theorem tickPlayer?_eq (h : w.Known) (hc : w.catalog.Resolved) (input : TickInput)
    (dt : Float32) : w.tickPlayer? input dt = some (w.tickPlayer input dt) := by
  have hready : (w.setOut input.movement dt).Known := h.setOut hc input.movement dt
  rw [tickPlayer?, workGate?_eq hready]
  rfl

theorem act?_eq (h : w.Known) (hc : w.catalog.Resolved) (input : TickInput) (now : Float)
    (dt : Float32) : w.act? input now dt = some (w.act input now dt) := by
  have hfired : (w.tickEnemies now).Known := h.tickEnemies now
  have hcatalog : (w.tickEnemies now).catalog.Resolved := (w.keeps_tickEnemies now).catalog ▸ hc
  have hplayed : ((w.tickEnemies now).tickPlayer input dt).Known :=
    hfired.tickPlayer hcatalog input dt
  have hflown : ((((w.tickEnemies now).tickPlayer input dt).tickPowerups dt).tickShots dt).Known :=
    (hplayed.tickPowerups dt).of_eq rfl rfl rfl
  rw [act?, tickEnemies?_eq h, Option.bind_eq_bind, Option.bind_some,
    tickPlayer?_eq hfired hcatalog, Option.bind_some]
  exact resolveHits?_eq hflown

section Play

variable {α : Type} [AudioPlayer α Float]

theorem followTimeline?_eq (h : w.Known) (hc : w.catalog.Resolved)
    (hplaced : w.timeline.Placed w.catalog.stages) (now : Float) (audio : α) :
    w.followTimeline? now audio = some (w.followTimeline now audio) := by
  obtain ⟨-, htell⟩ := hplaced.moves (w.timeline.moves_advance now w.catalog.stages audio)
  have hadvanced : Known
      { w with timeline := (w.timeline.advance now w.catalog.stages audio).2.1 } :=
    h.of_eq rfl rfl rfl
  simp only [followTimeline?, followTimeline, Timeline.advance?_eq hc.nonempty hplaced,
    Option.bind_eq_bind, Option.bind_some]
  cases hevent : (w.timeline.advance now w.catalog.stages audio).1 with
  | none => rfl
  | some event =>
    rw [hevent] at htell
    simp only [onTimelineEvent?_eq hadvanced hc (htell event List.mem_cons_self) now]
    rfl

theorem simulate?_eq (h : w.Known) (hc : w.catalog.Resolved)
    (hplaced : w.timeline.Placed w.catalog.stages) (input : TickInput) (now : Float) (audio : α)
    (dt : Float32) : w.simulate? input now audio dt = some (w.simulate input now audio dt) := by
  have hcounted : Known { w with tickCount := w.tickCount + 1 } := h.of_eq rfl rfl rfl
  have hfollowed := hcounted.followTimeline hc now audio
  have hcatalog := (keeps_followTimeline { w with tickCount := w.tickCount + 1 } now audio).catalog
  simp only [simulate?, followTimeline?_eq hcounted hc hplaced, Option.bind_eq_bind,
    Option.bind_some, act?_eq hfollowed (hcatalog.symm ▸ hc)]
  rfl

theorem goOn?_eq (h : w.Known) (hc : w.catalog.Resolved)
    (hplaced : w.timeline.Placed w.catalog.stages) (input : TickInput) (now : Float) (audio : α)
    (dt : Float32) : w.goOn? input now audio dt = some (w.goOn input now audio dt) := by
  rw [goOn?, goOn]
  split
  · rfl
  · split
    · rfl
    · exact simulate?_eq h hc hplaced input now audio dt

theorem startGame?_eq (hc : w.catalog.Resolved) (hplaced : w.timeline.Placed w.catalog.stages)
    (now : Float) (audio : α) : w.startGame? now audio = some (w.startGame now audio) := by
  obtain ⟨-, htell⟩ := hplaced.moves (w.timeline.moves_start now w.catalog.stages audio)
  have hbegun : Known { w.afresh (w.timeline.start now w.catalog.stages audio).2.1 with
      phase := .playing } :=
    (Known.afresh w (w.timeline.start now w.catalog.stages audio).2.1).of_eq rfl rfl rfl
  simp only [startGame?, startGame_eq, Timeline.start?_eq, Option.bind_eq_bind, Option.bind_some]
  cases hevent : (w.timeline.start now w.catalog.stages audio).1 with
  | none => rfl
  | some event =>
    rw [hevent] at htell
    simp only [onTimelineEvent?_eq hbegun hc (htell event List.mem_cons_self) now]
    rfl

end Play

end World

end BulletHell
