import BulletHell.Proofs.World.Course
import BulletHell.Proofs.World.Quiet
import BulletHell.Proofs.World.Strikes

/-!
# Each shot is spent once

Both passes, seen from the shots. In the first one a shot is spent on the first enemy that it
touches. In the second one the player meets what is left, and the first shot that touches is spent
on the one hit that the player can take.

## Main definitions

* `World.engagement` — the first pass without its show
* `World.reaches` — does a shot reach the player?

## Main results

* `World.exists_firstPass`, `World.secondPass` — the passes
* `World.each_shot_spent_once`
-/

namespace BulletHell

namespace World

/-! ### The first pass -/

/-- The engagement of all enemies: those that are left, and the toll. -/
def engagement (w : World) : Pool Enemy × Toll :=
  w.enemies.sweep w.skirmish.engage ⟨w.fireControl w.livingPlayer 0, [], []⟩

/-- What the first pass does to both sides. Spent shots are gone, the others stay in order, and
shots of revenge come in behind them. -/
structure FirstPass (w : World) (launches : List Launch) : Prop where
  known : ∀ l ∈ launches, w.catalog.shots[l.request.shot.index]? = some l.archetype
  shots : ∀ target, ∃ new,
    (w.resolveEnemies.shots.pool target).active =
        (w.shots.pool target).active.filter
          (!w.skirmish.spends w.enemies.items target ·.item) ++ new ∧
      new.map (·.item) = Launch.shotsFor target w.tickCount launches
  enemies : w.resolveEnemies.enemies.active =
    (w.skirmish.fates w.enemies.active w.shots.neutral.items w.shots.player.items).filterMap id
  contacts : w.engagement.2.contacts.reverse =
    w.skirmish.records w.enemies.items w.shots.neutral.items w.shots.player.items
  events : Tells launches w.events w.resolveEnemies.events

theorem aside_resolveEnemies (w : World) :
    Aside ({ w with enemies := w.engagement.1 }.adopt w.engagement.2.fire) w.resolveEnemies :=
  w.aside_settle _ _

/-- The toll of all engagements tells what the first pass does. -/
theorem firstPass_of_exchange {w : World} {launches : List Launch}
    (h : w.skirmish.Exchange w.enemies.items launches ⟨w.fireControl w.livingPlayer 0, [], []⟩
      (Pool.sweepSlots w.skirmish.engage w.enemies.active
        ⟨w.fireControl w.livingPlayer 0, [], []⟩).2.2) : w.FirstPass launches := by
  obtain ⟨-, hkept⟩ :=
    w.skirmish.exchange_sweepSlots ⟨w.fireControl w.livingPlayer 0, [], []⟩ rfl
      w.enemies.active
  have hsweep : w.engagement.2 =
      (Pool.sweepSlots w.skirmish.engage w.enemies.active
        ⟨w.fireControl w.livingPlayer 0, [], []⟩).2.2 := by
    rw [engagement, Pool.sweep_eq]
  have haside := w.aside_resolveEnemies
  rw [← hsweep] at h
  refine ⟨h.known, ?_, ?_, h.contacts, ?_⟩
  · intro target
    rw [haside.shots]
    exact h.active target
  · have hactive : w.engagement.1.active =
        (Pool.sweepSlots w.skirmish.engage w.enemies.active
          ⟨w.fireControl w.livingPlayer 0, [], []⟩).1 := by
      rw [engagement, Pool.sweep_eq]
    rw [haside.enemies]
    exact hactive.trans hkept
  · exact .hush (.of_append h.events) haside.events

/-- **The first pass** follows the assignment of shots to enemies. -/
theorem exists_firstPass (w : World) : ∃ launches, w.FirstPass launches := by
  obtain ⟨⟨launches, hexchange⟩, -⟩ :=
    w.skirmish.exchange_sweepSlots ⟨w.fireControl w.livingPlayer 0, [], []⟩ rfl
      w.enemies.active
  exact ⟨launches, firstPass_of_exchange hexchange⟩

/-! ### The second pass -/

/-- Does the shot reach the player? A fresh one does not. -/
def reaches (w : World) (shot : Shot) : Bool :=
  !shot.isFresh w.tickCount &&
    circlesOverlap shot.position shot.radius w.player.position
      w.catalog.settings.player.hitRadius

theorem sweepSlots_meetPlayer_hit (player : Vec2) (radius : Float32) (tick : Nat)
    (slots : List (Slot Shot)) :
    Pool.sweepSlots (meetPlayer player radius tick) slots true = (slots, [], true) := by
  induction slots with
  | nil => rfl
  | cons slot slots ih => simp [Pool.sweepSlots, meetPlayer, ih]

theorem meetPlayer_false (w : World) (shot : Shot) :
    meetPlayer w.player.position w.catalog.settings.player.hitRadius w.tickCount false shot =
      (!w.reaches shot, shot, w.reaches shot) := by
  rw [meetPlayer, reaches]
  cases shot.isFresh w.tickCount with
  | true => rfl
  | false =>
    cases circlesOverlap shot.position shot.radius w.player.position
      w.catalog.settings.player.hitRadius <;> rfl

/-- Of the shots that reach the player the first one is released, and all others stay. -/
theorem sweepSlots_meetPlayer (w : World) (slots : List (Slot Shot)) :
    Pool.sweepSlots
        (meetPlayer w.player.position w.catalog.settings.player.hitRadius w.tickCount) slots false =
      (slots.eraseP (w.reaches ·.item), (slots.find? (w.reaches ·.item)).toList,
        slots.any (w.reaches ·.item)) := by
  induction slots with
  | nil => rfl
  | cons slot slots ih =>
    simp only [Pool.sweepSlots, meetPlayer_false]
    cases hreach : w.reaches slot.item with
    | true => simp [hreach, sweepSlots_meetPlayer_hit]
    | false => simp [hreach, ih]

/-- A pool without the first shot that reaches the player. -/
def spendOne (w : World) (pool : Pool Shot) : Pool Shot :=
  ⟨pool.active.eraseP (w.reaches ·.item),
    pool.free ++ (pool.active.find? (w.reaches ·.item)).toList⟩

theorem strikePlayer_eq (w : World) (pool : Pool Shot) :
    strikePlayer pool w.player.position w.catalog.settings.player.hitRadius w.tickCount =
      (w.spendOne pool, pool.active.any (w.reaches ·.item)) := by
  rw [strikePlayer, Pool.sweep_eq, sweepSlots_meetPlayer]
  rfl

/-- A pool with no shot that reaches the player stays as it is. -/
theorem spendOne_of_not_any {w : World} {pool : Pool Shot}
    (h : pool.active.any (w.reaches ·.item) = false) : w.spendOne pool = pool := by
  rw [List.any_eq_false] at h
  rw [spendOne, List.eraseP_of_forall_not h, List.find?_eq_none.mpr h]
  simp

/-- The hit on the player is looked for among the enemies' shots, then among the neutral ones,
then among the enemies. -/
theorem findHit_eq (w : World) :
    w.findHit =
      if w.shots.enemy.active.any (w.reaches ·.item) then
        (true, { w with shots := w.shots.withPool .player (w.spendOne w.shots.enemy) })
      else if w.shots.neutral.active.any (w.reaches ·.item) then
        (true, { w with shots := w.shots.withPool .both (w.spendOne w.shots.neutral) })
      else (w.bodyContact, w) := by
  simp only [findHit, strikePlayer_eq]
  split
  · rfl
  · next henemy =>
    rw [Bool.not_eq_true] at henemy
    rw [spendOne_of_not_any henemy]
    split
    · rfl
    · next hneutral =>
      rw [Bool.not_eq_true] at hneutral
      rw [spendOne_of_not_any hneutral]

/-- A player who can be hit is hit. -/
theorem hit_ne_ignored {p : Player} (halive : p.isAlive = true) (hbare : p.isInvulnerable = false)
    (settings : PlayerSettings) : (p.hit settings).1 ≠ .ignored := by
  simp only [Player.hit, halive, hbare]
  cases p.shielded with
  | true => simp
  | false =>
    by_cases hlives : p.lives - 1 = 0 <;> simp [hlives]

theorem hurtPlayer_player (w : World) :
    w.hurtPlayer.player = (w.player.hit w.catalog.settings.player).2 := by
  simp only [hurtPlayer]
  split <;> rfl

/-- The hit on the player and the one shot that is spent on it: the first of its pool that reaches
the player. -/
structure SpentOnPlayer (w w' : World) (target : ShotTarget) (slot : Slot Shot) : Prop where
  hostile : target ≠ .enemy
  reaches : w.reaches slot.item = true
  shots : ∃ before after,
    (w.shots.pool target).active = before ++ slot :: after ∧
      (w'.shots.pool target).active = before ++ after ∧
      ∀ earlier ∈ before, w.reaches earlier.item = false
  others : ∀ other, other ≠ target → w'.shots.pool other = w.shots.pool other
  delivered : (w.player.hit w.catalog.settings.player).1 ≠ .ignored
  player : w'.player = (w.player.hit w.catalog.settings.player).2

/-- One pool in which a shot reaches the player. -/
theorem spentOnPlayer_of_any {w : World} (target : ShotTarget) (htarget : target ≠ .enemy)
    (halive : w.player.isAlive = true) (hbare : w.player.isInvulnerable = false)
    (hany : (w.shots.pool target).active.any (w.reaches ·.item) = true) :
    ∃ slot, w.SpentOnPlayer
      { w with shots :=
        w.shots.withPool target (w.spendOne (w.shots.pool target)) }.hurtPlayer target slot := by
  obtain ⟨slot, hmem, hreach⟩ := List.any_eq_true.mp hany
  obtain ⟨first, before, after, hbefore, hfirst, hsplit, herased⟩ :=
    List.exists_of_eraseP (p := (w.reaches ·.item)) hmem hreach
  have hshots := (quiet_hurtPlayer
    { w with shots := w.shots.withPool target (w.spendOne (w.shots.pool target)) }).shots
  refine ⟨first, htarget, hfirst, ⟨before, after, hsplit, ?_, ?_⟩, ?_, ?_, ?_⟩
  · rw [hshots, ShotPools.pool_withPool, if_pos rfl]
    exact herased
  · intro earlier hearlier
    simpa using hbefore earlier hearlier
  · intro other hother
    rw [hshots, ShotPools.pool_withPool, if_neg (Ne.symm hother)]
  · exact hit_ne_ignored halive hbare _
  · exact hurtPlayer_player _

/-- **The second pass** leaves the shots alone, or spends one of them on the hit that it
delivers. -/
theorem secondPass (w : World) :
    w.resolvePlayer.shots = w.shots ∨
      ∃ target slot, w.SpentOnPlayer w.resolvePlayer target slot := by
  simp only [resolvePlayer, findHit_eq]
  split
  · exact .inl rfl
  · next hopen =>
    rw [Bool.or_eq_true, not_or, Bool.not_eq_true', Bool.not_eq_false, Bool.not_eq_true] at hopen
    obtain ⟨halive, hbare⟩ := hopen
    by_cases henemy : w.shots.enemy.active.any (w.reaches ·.item) = true
    · rw [if_pos henemy]
      exact .inr ⟨.player, spentOnPlayer_of_any .player (by decide) halive hbare henemy⟩
    · rw [if_neg henemy]
      by_cases hneutral : w.shots.neutral.active.any (w.reaches ·.item) = true
      · rw [if_pos hneutral]
        exact .inr ⟨.both, spentOnPlayer_of_any .both (by decide) halive hbare hneutral⟩
      · rw [if_neg hneutral]
        left
        split
        · exact (quiet_hurtPlayer w).shots
        · rfl

/-! ### Both passes -/

/-- A shot that reaches the player after the first pass was there before it, and was not spent on
an enemy: what came in since is fresh. -/
theorem FirstPass.spared {w : World} {launches : List Launch} (h : w.FirstPass launches)
    {target : ShotTarget} {slot : Slot Shot}
    (hslot : slot ∈ (w.resolveEnemies.shots.pool target).active)
    (hreach : w.resolveEnemies.reaches slot.item = true) :
    slot ∈ (w.shots.pool target).active ∧
      w.skirmish.spends w.enemies.items target slot.item = false := by
  obtain ⟨new, hactive, hnew⟩ := h.shots target
  rw [hactive, List.mem_append, List.mem_filter] at hslot
  rcases hslot with ⟨hold, hspared⟩ | hfresh
  · exact ⟨hold, by simpa using hspared⟩
  · have hmem : slot.item ∈ Launch.shotsFor target w.tickCount launches :=
      hnew ▸ List.mem_map_of_mem hfresh
    have htick : w.resolveEnemies.tickCount = w.tickCount := (keeps_settle _ _ _).tickCount
    simp [reaches, Shot.isFresh, htick, Launch.bornTick_of_mem_shotsFor hmem] at hreach

/-- **Each shot is spent at most once**, on the first thing that it touches. In the first pass that
is the first enemy, in order of activation, that it has contact with; the shots spent on an enemy
decide its fate, and each of them is recorded once. In the second pass at most one shot is spent,
on a hit that the player takes; it was there before, and was not spent on an enemy. Fresh shots are
not spent at all, and what remains keeps its order and its contents. -/
theorem each_shot_spent_once (w : World) :
    ∃ launches, w.FirstPass launches ∧
      (∀ shots,
        ((List.range w.enemies.items.length).flatMap
            (w.skirmish.share w.enemies.items shots)).Perm
          (shots.filter fun shot => (w.skirmish.firstTouched w.enemies.items shot).isSome)) ∧
      (w.resolveHits.shots = w.resolveEnemies.shots ∨
        ∃ target slot, w.resolveEnemies.SpentOnPlayer w.resolveHits target slot ∧
          slot ∈ (w.shots.pool target).active ∧
          w.skirmish.spends w.enemies.items target slot.item = false) := by
  obtain ⟨launches, hfirst⟩ := w.exists_firstPass
  refine ⟨launches, hfirst, w.skirmish.share_perm w.enemies.items, ?_⟩
  rcases w.resolveEnemies.secondPass with hsame | ⟨target, slot, hspent⟩
  · exact .inl hsame
  · obtain ⟨before, after, hactive, -, -⟩ := hspent.shots
    have hslot : slot ∈ (w.resolveEnemies.shots.pool target).active := by
      rw [hactive]
      exact List.mem_append_right _ List.mem_cons_self
    exact .inr ⟨target, slot, hspent, hfirst.spared hslot hspent.reaches⟩

end World

end BulletHell
