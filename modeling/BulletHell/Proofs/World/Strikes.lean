import Mathlib.Data.List.Forall2
import BulletHell.Proofs.Actor.Requests
import BulletHell.Proofs.Pool.Sweep
import BulletHell.Proofs.World.Assignment
import BulletHell.Proofs.World.Launches

/-!
# Strikes

The engagement of the enemies, seen as an exchange: shots that touch an enemy leave their pools
and are recorded, and shots of revenge come in behind. One enemy after the other, this follows the
assignment of shots to enemies, for two reasons. A shot that was spent is gone when the next enemy
is engaged, and a shot that was launched on the way is fresh and touches nobody.

## Main definitions

* `Skirmish.spend`, `Skirmish.struck` — both pools strike one enemy
* `Skirmish.Exchange` — all that some engagements do to the toll
* `Skirmish.Avenges` — the volley that answers for a fallen enemy

## Main results

* `Skirmish.engage_eq`, `Skirmish.fate_engage` — one enemy
* `Skirmish.Exchange.cons` — one enemy, then the others
* `Skirmish.avenged_sweepSlots`, `Skirmish.exchange_sweepSlots` — all enemies
-/

namespace BulletHell

namespace Skirmish

variable {s : Skirmish}

/-! ### One enemy -/

/-- One shot against an enemy, told by the contact. -/
theorem meet_eq {enemy : Enemy} {archetype : EnemyArchetype}
    (hknown : s.catalog.enemy? enemy.archetype = some archetype) (v : Volley) (shot : Shot) :
    Volley.meet enemy.position archetype s.tick v shot =
      (!s.touches enemy shot, shot,
        if s.touches enemy shot then
          ⟨if s.contact enemy shot = .hurt then v.damage + shot.damage else v.damage,
            s.record enemy shot :: v.contacts⟩
        else v) := by
  have hcontact : s.contact enemy shot = shotContact shot enemy.position archetype := by
    rw [contact, hknown]
  rw [Volley.meet, touches, record, hcontact]
  cases shot.isFresh s.tick with
  | true => rfl
  | false => cases shotContact shot enemy.position archetype <;> rfl

/-- The visits of a strike: what touches the enemy is released, and the others stay in order. -/
theorem sweepSlots_meet {enemy : Enemy} {archetype : EnemyArchetype}
    (hknown : s.catalog.enemy? enemy.archetype = some archetype) (slots : List (Slot Shot))
    (v : Volley) :
    Pool.sweepSlots (Volley.meet enemy.position archetype s.tick) slots v =
      (slots.filter (!s.touches enemy ·.item), slots.filter (s.touches enemy ·.item),
        ⟨(((slots.map (·.item)).filter (s.touches enemy ·)).filter
            (s.contact enemy · = .hurt)).foldl (fun damage shot => damage + shot.damage) v.damage,
          (((slots.map (·.item)).filter (s.touches enemy ·)).map (s.record enemy)).reverse ++
            v.contacts⟩) := by
  induction slots generalizing v with
  | nil => rfl
  | cons slot slots ih =>
    simp only [Pool.sweepSlots, meet_eq hknown, ih]
    cases htouch : s.touches enemy slot.item with
    | false => simp [htouch]
    | true => by_cases hhurt : s.contact enemy slot.item = .hurt <;> simp [htouch, hhurt]

/-- A pool from which the shots that touch an enemy were released. -/
def spend (s : Skirmish) (enemy : Enemy) (pool : Pool Shot) : Pool Shot :=
  ⟨pool.active.filter (!s.touches enemy ·.item),
    pool.free ++ pool.active.filter (s.touches enemy ·.item)⟩

theorem strike_eq {enemy : Enemy} {archetype : EnemyArchetype}
    (hknown : s.catalog.enemy? enemy.archetype = some archetype) (pool : Pool Shot)
    (contacts : List (EffectKind × Vec2)) :
    Volley.strike pool enemy.position archetype s.tick contacts =
      (s.spend enemy pool,
        ⟨s.harm enemy (pool.items.filter (s.touches enemy ·)),
          ((pool.items.filter (s.touches enemy ·)).map (s.record enemy)).reverse ++
            contacts⟩) := by
  rw [Volley.strike, Pool.sweep_eq, sweepSlots_meet hknown]
  rfl

/-- The volley with which a fallen enemy is answered for: its own revenge, where revenge is taken
at all. -/
def Avenges (s : Skirmish) (fallen : Enemy) (volley : List Launch) : Prop :=
  if s.revenge then ∃ f, FireControl.Launches volley f (fallen.fireRevenge f) else volley = []

/-- A wound launches the volley that a kill is answered with, and nothing otherwise. -/
theorem launches_wound (toll : Toll) (enemy : Enemy) (archetype : EnemyArchetype)
    (damage : Float32) :
    ∃ volley,
      FireControl.Launches volley toll.fire (s.wound toll enemy archetype damage).2.2.fire ∧
        (s.wound toll enemy archetype damage).2.2.contacts = toll.contacts ∧
        ((s.wound toll enemy archetype damage).1 = true → volley = []) ∧
        ((s.wound toll enemy archetype damage).1 = false →
          s.Avenges (s.wound toll enemy archetype damage).2.1 volley) := by
  have hnone := FireControl.Launches.of_eq (f := toll.fire) rfl rfl rfl rfl
  rw [wound]
  split
  · exact ⟨[], hnone, rfl, fun _ => rfl, fun h => by cases h⟩
  · dsimp only
    split
    · exact ⟨[], hnone, rfl, fun _ => rfl, fun h => by cases h⟩
    · by_cases hrevenge : s.revenge = true
      · obtain ⟨volley, hvolley⟩ :=
          Enemy.fireRevenge_course FireControl.course_launches
            (Emitter.allFire_true (enemy.takeDamage damage).2.emitters) toll.fire
        rw [if_pos hrevenge]
        refine ⟨volley, hvolley, rfl, fun h => Bool.noConfusion h, fun _ => ?_⟩
        rw [Avenges, if_pos hrevenge]
        exact ⟨toll.fire, hvolley⟩
      · rw [if_neg hrevenge]
        refine ⟨[], hnone, rfl, fun h => Bool.noConfusion h, fun _ => ?_⟩
        rw [Avenges, if_neg hrevenge]

/-- The toll once both pools have struck an enemy. -/
def struck (s : Skirmish) (toll : Toll) (enemy : Enemy) : Toll :=
  let shots := toll.fire.shots
  { toll with
    fire := { toll.fire with shots :=
      { shots with neutral := s.spend enemy shots.neutral, player := s.spend enemy shots.player } }
    contacts :=
      ((shots.player.items.filter (s.touches enemy ·)).map (s.record enemy)).reverse ++
        (((shots.neutral.items.filter (s.touches enemy ·)).map (s.record enemy)).reverse ++
          toll.contacts) }

theorem engage_eq {enemy : Enemy} {archetype : EnemyArchetype}
    (hknown : s.catalog.enemy? enemy.archetype = some archetype) (toll : Toll) :
    s.engage toll enemy =
      s.wound (s.struck toll enemy) enemy archetype
        (s.damage enemy archetype (toll.fire.shots.neutral.items.filter (s.touches enemy ·))
          (toll.fire.shots.player.items.filter (s.touches enemy ·))) := by
  simp only [engage, hknown, strike_eq hknown]
  rfl

/-- What a wound leaves of an enemy. -/
theorem leave_wound (toll : Toll) (enemy : Enemy) (archetype : EnemyArchetype)
    (damage : Float32) :
    (if (s.wound toll enemy archetype damage).1 then
        some (s.wound toll enemy archetype damage).2.1
      else none) = leave enemy damage := by
  simp only [wound, leave]
  split
  · rfl
  · cases (enemy.takeDamage damage).1 <;> rfl

/-- **What an engagement leaves of an enemy** is decided by the shots that touch it. -/
theorem fate_engage (toll : Toll) (enemy : Enemy) :
    (if (s.engage toll enemy).1 then some (s.engage toll enemy).2.1 else none) =
      s.fate enemy (toll.fire.shots.neutral.items.filter (s.touches enemy ·))
        (toll.fire.shots.player.items.filter (s.touches enemy ·)) := by
  rw [fate]
  cases hknown : s.catalog.enemy? enemy.archetype with
  | none =>
    simp only [engage, hknown]
    rfl
  | some archetype =>
    rw [engage_eq hknown]
    exact leave_wound _ _ _ _

/-- All that engagements with some enemies do to the toll: shots that are spent leave their
pools, launched ones come behind the others, and every shot that is spent is recorded once. -/
structure Exchange (s : Skirmish) (enemies : List Enemy) (launches : List Launch)
    (toll toll' : Toll) : Prop where
  archetypes : toll'.fire.archetypes = toll.fire.archetypes
  tick : toll'.fire.tick = toll.fire.tick
  known : ∀ l ∈ launches, toll.fire.archetypes[l.request.shot.index]? = some l.archetype
  active : ∀ target, ∃ new,
    (toll'.fire.shots.pool target).active =
        ((toll.fire.shots.pool target).active.filter (!s.spends enemies target ·.item)) ++ new ∧
      new.map (·.item) = Launch.shotsFor target toll.fire.tick launches
  events : toll'.fire.events.toList = toll.fire.events.toList ++ launches.map (·.event)
  contacts : toll'.contacts.reverse =
    toll.contacts.reverse ++
      s.records enemies toll.fire.shots.neutral.items toll.fire.shots.player.items

/-! ### Engagements one after the other -/

namespace Exchange

variable {enemy : Enemy} {enemies : List Enemy} {ls ls' : List Launch} {toll toll' toll'' : Toll}

/-- Without enemies nothing happens. -/
theorem nil (toll : Toll) : s.Exchange [] [] toll toll where
  archetypes := rfl
  tick := rfl
  known := by simp
  active target := by
    refine ⟨[], ?_, rfl⟩
    rw [List.append_nil, List.filter_eq_self.mpr]
    simp
  events := by simp
  contacts := by simp

/-- An enemy that no shot touches. -/
theorem untouched (h : ∀ shot, s.touches enemy shot = false) (toll : Toll) :
    s.Exchange [enemy] [] toll toll where
  archetypes := rfl
  tick := rfl
  known := by simp
  active target := by
    refine ⟨[], ?_, rfl⟩
    rw [List.append_nil, List.filter_eq_self.mpr]
    simp [spends_singleton, h]
  events := by simp
  contacts := by simp [records_cons, h]

/-- Two strikes. -/
theorem struck (toll : Toll) (enemy : Enemy) :
    s.Exchange [enemy] [] toll (s.struck toll enemy) where
  archetypes := rfl
  tick := rfl
  known := by simp
  active target := by
    refine ⟨[], ?_, rfl⟩
    rw [List.append_nil]
    cases target with
    | player =>
      rw [List.filter_eq_self.mpr]
      · rfl
      · simp [spends]
    | enemy => simp [spends_singleton, Skirmish.struck, spend, ShotPools.pool]
    | both => simp [spends_singleton, Skirmish.struck, spend, ShotPools.pool]
  events := by simp [Skirmish.struck]
  contacts := by simp [Skirmish.struck, records_cons]

/-- What is launched afterwards comes last. -/
theorem launch (h : s.Exchange enemies ls toll toll')
    (hlaunches : FireControl.Launches ls' toll'.fire toll''.fire)
    (hcontacts : toll''.contacts = toll'.contacts) :
    s.Exchange enemies (ls ++ ls') toll toll'' where
  archetypes := hlaunches.archetypes.trans h.archetypes
  tick := hlaunches.tick.trans h.tick
  known l hl := by
    rcases List.mem_append.mp hl with hl | hl
    · exact h.known l hl
    · rw [← h.archetypes]
      exact hlaunches.known l hl
  active target := by
    obtain ⟨new, hactive, hnew⟩ := h.active target
    obtain ⟨new', hactive', hnew'⟩ := hlaunches.active target
    refine ⟨new ++ new', ?_, ?_⟩
    · rw [hactive', hactive, List.append_assoc]
    · rw [List.map_append, hnew, hnew', h.tick, Launch.shotsFor_append]
  events := by rw [hlaunches.events, h.events, List.map_append, List.append_assoc]
  contacts := hcontacts ▸ h.contacts

/-- The shots that the next enemies meet: those that did not touch the first one, and behind them
fresh ones. -/
theorem items_pool (htick : toll.fire.tick = s.tick) (h : s.Exchange [enemy] ls toll toll')
    (target : ShotTarget) (htarget : target ≠ .player) :
    ∃ new, (toll'.fire.shots.pool target).items =
        (toll.fire.shots.pool target).items.filter (!s.touches enemy ·) ++ new ∧
      ∀ shot ∈ new, shot.bornTick = s.tick := by
  obtain ⟨new, hactive, hnew⟩ := h.active target
  refine ⟨new.map (·.item), ?_, fun shot hshot => ?_⟩
  · rw [Pool.items, hactive, List.map_append, Pool.items, List.filter_map]
    simp only [spends_singleton, htarget, ne_eq, not_false_eq_true, decide_true, Bool.true_and]
    rfl
  · rw [hnew, htick] at hshot
    exact Launch.bornTick_of_mem_shotsFor hshot

/-- **One enemy, then the others.** What the first one leaves is what the others meet, and the
shots that were launched in between are fresh. -/
theorem cons (htick : toll.fire.tick = s.tick) (h : s.Exchange [enemy] ls toll toll')
    (h' : s.Exchange enemies ls' toll' toll'') :
    s.Exchange (enemy :: enemies) (ls ++ ls') toll toll'' where
  archetypes := h'.archetypes.trans h.archetypes
  tick := h'.tick.trans h.tick
  known l hl := by
    rcases List.mem_append.mp hl with hl | hl
    · exact h.known l hl
    · rw [← h.archetypes]
      exact h'.known l hl
  active target := by
    obtain ⟨new, hactive, hnew⟩ := h.active target
    obtain ⟨new', hactive', hnew'⟩ := h'.active target
    -- what the first engagement launched is fresh, so the later ones leave it alone
    have hfresh : new.filter (!s.spends enemies target ·.item) = new := by
      refine List.filter_eq_self.mpr fun slot hslot => ?_
      have hmem : slot.item ∈ Launch.shotsFor target toll.fire.tick ls :=
        hnew ▸ List.mem_map_of_mem hslot
      rw [spends_of_fresh ((Launch.bornTick_of_mem_shotsFor hmem).trans htick)]
      rfl
    refine ⟨new ++ new', ?_, ?_⟩
    · rw [hactive', hactive, List.filter_append, hfresh, List.filter_filter, List.append_assoc]
      congr 1
      refine List.filter_congr fun slot _ => ?_
      rw [spends_cons enemy enemies, Bool.not_or, Bool.and_comm]
    · rw [List.map_append, hnew, hnew', h.tick, Launch.shotsFor_append]
  events := by rw [h'.events, h.events, List.map_append, List.append_assoc]
  contacts := by
    obtain ⟨neutral, hneutral, hfresh⟩ := h.items_pool htick .both (by decide)
    obtain ⟨player, hplayer, hfresh'⟩ := h.items_pool htick .enemy (by decide)
    simp only [ShotPools.pool] at hneutral hplayer
    rw [h'.contacts, h.contacts, hneutral, hplayer, records_append_fresh enemies _ _ hfresh hfresh',
      records_cons, records_cons, records_nil, List.append_nil, List.append_assoc]

end Exchange

/-- **One enemy is engaged.** -/
theorem exchange_engage (toll : Toll) (enemy : Enemy) :
    ∃ volley, s.Exchange [enemy] volley toll (s.engage toll enemy).2.2 ∧
      ((s.engage toll enemy).1 = true → volley = []) ∧
      ((s.engage toll enemy).1 = false → s.Avenges (s.engage toll enemy).2.1 volley) := by
  cases hknown : s.catalog.enemy? enemy.archetype with
  | none =>
    have huntouched : ∀ shot, s.touches enemy shot = false := by
      intro shot
      simp [touches, contact, hknown]
    simp only [engage, hknown]
    exact ⟨[], .untouched huntouched toll, fun _ => rfl, fun h => by cases h⟩
  | some archetype =>
    rw [engage_eq hknown]
    obtain ⟨volley, hvolley, hcontacts, hanswer⟩ :=
      launches_wound (s := s) (s.struck toll enemy) enemy archetype
        (s.damage enemy archetype (toll.fire.shots.neutral.items.filter (s.touches enemy ·))
          (toll.fire.shots.player.items.filter (s.touches enemy ·)))
    exact ⟨volley, (Exchange.struck toll enemy).launch hvolley hcontacts, hanswer⟩

/-- **All enemies are engaged**, in order. The enemies that are left are told by their fates, and
those that are not are answered for one by one. -/
theorem avenged_sweepSlots (toll : Toll) (htick : toll.fire.tick = s.tick)
    (slots : List (Slot Enemy)) :
    (∃ volleys,
        List.Forall₂ (fun slot volley => s.Avenges slot.item volley)
          (Pool.sweepSlots s.engage slots toll).2.1 volleys ∧
        s.Exchange (slots.map (·.item)) volleys.flatten toll
          (Pool.sweepSlots s.engage slots toll).2.2) ∧
      (Pool.sweepSlots s.engage slots toll).1 =
        (s.fates slots toll.fire.shots.neutral.items
          toll.fire.shots.player.items).filterMap id := by
  induction slots generalizing toll with
  | nil => exact ⟨⟨[], .nil, .nil toll⟩, rfl⟩
  | cons slot slots ih =>
    obtain ⟨volley, hfirst, hspared, hanswer⟩ := s.exchange_engage toll slot.item
    obtain ⟨⟨volleys, hanswers, hrest⟩, hkept⟩ := ih _ (hfirst.tick.trans htick)
    obtain ⟨neutral, hneutral, hfresh⟩ := hfirst.items_pool htick .both (by decide)
    obtain ⟨player, hplayer, hfresh'⟩ := hfirst.items_pool htick .enemy (by decide)
    have hfate := s.fate_engage toll slot.item
    simp only [ShotPools.pool] at hneutral hplayer
    rw [hneutral, hplayer, fates_append_fresh slots _ _ hfresh hfresh'] at hkept
    have hall := hfirst.cons htick hrest
    refine ⟨?_, ?_⟩
    · simp only [Pool.sweepSlots]
      split
      · next hkeep =>
        obtain rfl := hspared hkeep
        exact ⟨volleys, hanswers, hall⟩
      · next hkeep =>
        exact ⟨volley :: volleys, .cons (hanswer (Bool.eq_false_iff.mpr hkeep)) hanswers, hall⟩
    · rw [fates_cons, ← hfate]
      simp only [Pool.sweepSlots]
      split
      · next hkeep => simp [hkept]
      · next hkeep => simp [hkept]

/-- The same, where it does not matter who launches. -/
theorem exchange_sweepSlots (toll : Toll) (htick : toll.fire.tick = s.tick)
    (slots : List (Slot Enemy)) :
    (∃ launches, s.Exchange (slots.map (·.item)) launches toll
        (Pool.sweepSlots s.engage slots toll).2.2) ∧
      (Pool.sweepSlots s.engage slots toll).1 =
        (s.fates slots toll.fire.shots.neutral.items
          toll.fire.shots.player.items).filterMap id := by
  obtain ⟨⟨volleys, -, hexchange⟩, hkept⟩ := s.avenged_sweepSlots toll htick slots
  exact ⟨⟨volleys.flatten, hexchange⟩, hkept⟩

end Skirmish

end BulletHell
