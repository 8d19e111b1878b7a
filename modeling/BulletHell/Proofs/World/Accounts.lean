import BulletHell.Proofs.World.Ledger
import BulletHell.Proofs.World.Resolution

/-!
# What the ledger is about

The operations that move points, extends and lives, each with its entry. A kill is worth points, and
the points of all kills of a tick are awarded together; the thresholds that they pass are told one
by one. A powerup takes a pending extend along, a pickup hands it over, and a hit costs a life
unless a shield was up.

In the end a tick that is played is one entry, and so is the beginning of a run.

## Main definitions

* `World.felled` — the enemies that the resolution of hits removes
* `World.killOf` — place and points of a kill
* `World.PickedUp` — what the powerups of a tick bring

## Main results

* `World.Shown.awardScore` — kills that were told, and their points
* `World.books_hurtPlayer`, `World.books_spawnPowerup`, `World.books_tickPowerups`,
  `World.books_resolveEnemies` — hits, extends and kills
* `World.books_simulate` — a tick that is played
-/

namespace BulletHell

open GameEvent

/-! ### Points -/

namespace World

/-- Every threshold that the score has reached is told, and moves by one step. -/
theorem exists_earnExtends_eq (w : World) (every : Nat) (pos : 0 < every) :
    ∃ n, w.earnExtends every pos =
        { w with
          extendPending := w.extendPending || decide (0 < n)
          nextExtend := w.nextExtend + every * n
          events := w.events ++ (List.replicate n (.extendEarned w.score)).toArray } ∧
      w.score < w.nextExtend + every * n ∧
      (n ≠ 0 → w.nextExtend + every * n ≤ w.score + every) := by
  fun_induction World.earnExtends w every pos with
  | case1 w hreached ih =>
    obtain ⟨n, heq, hahead, hnear⟩ := ih
    simp only [announce] at heq hahead hnear
    have hstep : w.nextExtend + every * (n + 1) = w.nextExtend + every + every * n := by
      rw [Nat.mul_add, Nat.mul_one]
      omega
    have hqueue : w.events.push (.extendEarned w.score) ++
          (List.replicate n (.extendEarned w.score)).toArray =
        w.events ++ (List.replicate (n + 1) (.extendEarned w.score)).toArray :=
      Array.ext' (by simp [List.replicate_succ])
    refine ⟨n + 1, ?_, by omega, fun _ => ?_⟩
    · simp only [announce]
      rw [heq, hstep, hqueue]
      simp
    · by_cases hlast : n = 0
      · rw [hstep, hlast, Nat.mul_zero]
        omega
      · exact hstep ▸ hnear hlast
  | case2 w hahead =>
    refine ⟨0, ?_, by omega, fun h => absurd rfl h⟩
    simp

/-- Points are added, and every threshold that they reach is told. -/
theorem exists_awardScore_eq (w : World) (points : Nat) :
    ∃ n, w.awardScore points =
        { w with
          score := w.score + points
          extendPending := w.extendPending || decide (0 < n)
          nextExtend := w.nextExtend + w.catalog.settings.extendEvery * n
          events := w.events ++ (List.replicate n (.extendEarned (w.score + points))).toArray } ∧
      (0 < w.catalog.settings.extendEvery → w.score < w.nextExtend →
        w.score + points < w.nextExtend + w.catalog.settings.extendEvery * n) ∧
      (n ≠ 0 → 0 < w.catalog.settings.extendEvery ∧
        w.nextExtend + w.catalog.settings.extendEvery * n ≤
          w.score + points + w.catalog.settings.extendEvery) := by
  by_cases hpoints : points = 0
  · refine ⟨0, ?_, fun _ hahead => by omega, fun h => absurd rfl h⟩
    rw [awardScore, if_pos hpoints]
    simp [hpoints]
  · rw [awardScore_eq w hpoints]
    split
    · next pos =>
      obtain ⟨n, heq, hahead, hnear⟩ :=
        { w with score := w.score + points }.exists_earnExtends_eq _ pos
      exact ⟨n, heq, fun _ _ => hahead, fun hn => ⟨pos, hnear hn⟩⟩
    · next hnone =>
      refine ⟨0, ?_, fun pos => absurd pos hnone, fun h => absurd rfl h⟩
      simp

/-- **Kills that were told, and their points.** -/
theorem Shown.awardScore {kills : List (Vec2 × Nat)} {w w' : World} (h : Shown kills w w') :
    Books kills w (w'.awardScore (worth kills)) := by
  obtain ⟨told, hevents, hkills, htold⟩ := h.events
  obtain ⟨n, heq, hahead, hnear⟩ := w'.exists_awardScore_eq (worth kills)
  have hpoints : worth kills = points told := by rw [points, hkills]
  rw [h.catalog, h.score, h.nextExtend, hpoints] at hahead hnear
  rw [hpoints] at heq ⊢
  generalize hqueue : told ++ List.replicate n (extendEarned (w'.score + points told)) = told'
  obtain ⟨hkills', hearned, hbrought, hgranted, hlost, hended⟩ :=
    columns_append_earned htold n _ hqueue.symm
  have hpoints' : points told' = points told := by rw [points, points, hkills']
  rw [heq]
  refine ⟨told', ?_, hkills'.trans hkills, hended, .of_earned h.catalog ?_ ?_ ?_ ?_ ?_ h.powerups
    h.lives hearned hbrought hgranted hlost⟩
  · rw [Array.toList_append, hevents, List.append_assoc, hqueue]
  · simp only [h.score, hpoints']
  · simp only [h.nextExtend, h.catalog]
  · simp only [h.score, h.nextExtend, h.catalog]
    exact hahead
  · simp only [h.score, h.nextExtend, h.catalog]
    exact hnear
  · simp only [h.extendPending]

/-! ### Hits and powerups -/

theorem countP_singleton_eq {β : Type} (column : β → Bool) (x : β) :
    [x].countP column = (column x).toNat := by
  rw [List.countP_singleton]
  cases column x <;> rfl

/-- One announcement, with what it says about extends and lives. -/
theorem Books.of_push {w w' : World} (event : GameEvent)
    (hevents : w'.events = w.events.push event) (hkill : event.kill? = none)
    (hearns : event.earnsExtend = false) (hends : event.endsRun = false)
    (hcatalog : w'.catalog = w.catalog) (hscore : w'.score = w.score)
    (hnext : w'.nextExtend = w.nextExtend)
    (hpending : event.bringsExtend.toNat + w'.extendPending.toNat ≤ w.extendPending.toNat)
    (hcarried : event.grantsExtend.toNat + w'.carriers ≤ event.bringsExtend.toNat + w.carriers)
    (hlives : w'.player.lives + event.costsLife.toNat =
      w.player.lives + event.grantsExtend.toNat) : Books [] w w' := by
  have hkills : [event].filterMap kill? = [] := by
    rw [List.filterMap_cons_none hkill, List.filterMap_nil]
  have hpoints : points [event] = 0 := by
    rw [points, hkills]
    rfl
  refine ⟨[event], by rw [hevents, Array.toList_push], hkills, ?_, hcatalog, ?_, ?_, ?_, ?_, ?_, ?_,
    ?_, ?_⟩
  · rw [countP_singleton_eq, hends]
    rfl
  · rw [hscore, hpoints, Nat.add_zero]
  · rw [hnext, countP_singleton_eq, hearns, Bool.toNat_false, Nat.mul_zero, Nat.add_zero]
  · rw [hscore, hnext]
    exact fun _ hahead => hahead
  · rw [hscore, hnext]
    exact id
  · rw [countP_singleton_eq, hearns]
    exact fun _ => rfl
  · rw [countP_singleton_eq, countP_singleton_eq, hearns, Bool.toNat_false, Nat.zero_add]
    exact hpending
  · rw [countP_singleton_eq, countP_singleton_eq]
    exact hcarried
  · rw [countP_singleton_eq, countP_singleton_eq]
    exact hlives

/-- A hit costs a life, or a shield, or nothing. -/
theorem lives_hit (p : Player) (settings : PlayerSettings) :
    (p.hit settings).2.lives +
        (decide ((p.hit settings).1 = .lifeLost ∨ (p.hit settings).1 = .dead)).toNat = p.lives := by
  simp only [Player.hit]
  split
  · rfl
  · next hopen =>
    split
    · rfl
    · rw [Bool.or_eq_true, not_or, Bool.not_eq_true', Bool.not_eq_false] at hopen
      have halive : 0 < p.lives := by simpa [Player.isAlive] using hopen.1
      split
      · simp
        omega
      · simp
        omega

theorem books_hurtPlayer (w : World) : Books [] w w.hurtPlayer := by
  have hlives := lives_hit w.player w.catalog.settings.player
  have htold : ∀ (event : GameEvent) (kind : EffectKind), event.kill? = none →
      event.earnsExtend = false → event.endsRun = false → event.bringsExtend = false →
      event.grantsExtend = false →
      (w.player.hit w.catalog.settings.player).2.lives + event.costsLife.toNat = w.player.lives →
      Books [] w
        (({ w with player := (w.player.hit w.catalog.settings.player).2 }.announce event).addEffect
          kind w.player.position) := by
    intro event kind hkill hearns hends hbrings hgrants hcosts
    have hhit : Books [] w
        ({ w with player := (w.player.hit w.catalog.settings.player).2 }.announce event) := by
      refine .of_push event rfl hkill hearns hends rfl rfl rfl ?_ ?_ ?_
      · rw [hbrings, Bool.toNat_false, Nat.zero_add]
        exact Nat.le_refl _
      · rw [hgrants, hbrings]
        exact Nat.le_refl _
      · rw [hgrants]
        exact hcosts
    exact hhit.trans (shown_addEffect _ _ _).books
  simp only [hurtPlayer]
  split
  · next houtcome =>
    rw [houtcome] at hlives
    exact Shown.books (.of_eq rfl rfl rfl rfl rfl rfl hlives)
  · next houtcome =>
    rw [houtcome] at hlives
    exact htold (.playerHit w.player.position true) _ rfl rfl rfl rfl rfl hlives
  · next houtcome =>
    rw [houtcome] at hlives
    exact htold (.playerHit w.player.position false) _ rfl rfl rfl rfl rfl hlives
  · next houtcome =>
    rw [houtcome] at hlives
    exact htold (.playerDied w.player.position) _ rfl rfl rfl rfl rfl hlives

theorem books_resolvePlayer (w : World) : Books [] w w.resolvePlayer := by
  have hspent : ∀ shots, Shown [] w { w with shots := shots } :=
    fun _ => .of_eq rfl rfl rfl rfl rfl rfl rfl
  obtain ⟨shots, hspare | hhurt⟩ := w.resolvePlayer_cases
  · rw [hspare]
    exact (hspent shots).books
  · rw [hhurt]
    exact (hspent shots).books.trans (books_hurtPlayer _)

/-! ### Powerups come -/

theorem books_spawnPowerup (w : World) (event : SpawnEvent) :
    Books [] w (w.spawnPowerup event) := by
  simp only [spawnPowerup]
  split
  · exact Shown.books
      (.of_push (.spawnDropped event.beat) rfl rfl rfl rfl rfl rfl rfl rfl rfl)
  · next powerups hspawn =>
    have hitems : powerups.items = w.powerups.items ++
        [.entering event.lane (w.extendPending && w.player.shielded) w.catalog.powerup] := by
      rw [Pool.spawn?] at hspawn
      split at hspawn
      · cases hspawn
      · obtain rfl := Option.some.inj hspawn
        simp [Pool.items]
    refine .of_push (.powerupSpawned (entryPoint event)
      (w.extendPending && w.player.shielded)) rfl rfl rfl rfl rfl rfl rfl ?_ ?_ rfl
    · simp only [announce, bringsExtend]
      cases w.extendPending <;> cases w.player.shielded <;> decide
    · simp only [announce, carriers, hitems, List.countP_append, grantsExtend, bringsExtend,
        Bool.toNat_false, countP_singleton_eq, Powerup.entering]
      omega

/-! ### Powerups are collected -/

/-- Does the event belong to a pickup? -/
def PickedUp.tellsOf : GameEvent → Bool
  | .powerupCollected .. | .effect .. => true
  | _ => false

/-- What powerups have brought, with what was told of it. -/
structure PickedUp (told : List GameEvent) (p p' : Pickup) : Prop where
  events : p'.events.toList = p.events.toList ++ told
  lives : p'.player.lives = p.player.lives + told.countP grantsExtend
  told : ∀ event ∈ told, PickedUp.tellsOf event = true

namespace PickedUp

variable {p p' p'' : Pickup} {told told' : List GameEvent}

theorem refl (p : Pickup) : PickedUp [] p p :=
  ⟨(List.append_nil _).symm, rfl, fun _ h => by cases h⟩

theorem trans (h : PickedUp told p p') (h' : PickedUp told' p' p'') :
    PickedUp (told ++ told') p p'' := by
  refine ⟨?_, ?_, fun event hevent => ?_⟩
  · rw [h'.events, h.events, List.append_assoc]
  · rw [h'.lives, h.lives, List.countP_append, Nat.add_assoc]
  · rcases List.mem_append.mp hevent with hmem | hmem
    · exact h.told event hmem
    · exact h'.told event hmem

theorem collect (settings : PlayerSettings) (p : Pickup) (orb : Orb) (position : Vec2) :
    PickedUp [.powerupCollected orb position] p (p.collect settings orb position) := by
  refine ⟨Array.toList_push, ?_, fun event hevent => ?_⟩
  · cases orb <;> rfl
  · rw [List.mem_singleton.mp hevent]
    rfl

theorem flash (seconds : Float32) (p : Pickup) (position : Vec2) :
    ∃ told, PickedUp told p (p.flash seconds position) ∧ told.countP grantsExtend = 0 := by
  simp only [Pickup.flash, showEffect]
  split
  · exact ⟨[], refl p, rfl⟩
  · refine ⟨[.effect .pickup position], ⟨Array.toList_push, rfl, fun event hevent => ?_⟩, rfl⟩
    rw [List.mem_singleton.mp hevent]
    rfl

/-- All orbs of a powerup. -/
theorem foldl_collect (settings : PlayerSettings) (orbs : List (Orb × Vec2)) (p : Pickup) :
    PickedUp (orbs.map fun orb => .powerupCollected orb.1 orb.2) p
      (orbs.foldl (fun p orb => p.collect settings orb.1 orb.2) p) := by
  induction orbs generalizing p with
  | nil => exact refl p
  | cons orb orbs ih => exact (collect settings p orb.1 orb.2).trans (ih _)

end PickedUp

theorem hasExtend_tick (p : Powerup) (target : Option Vec2) (settings : PowerupSettings)
    (dt : Float32) : (p.tick target settings dt).2.hasExtend = p.hasExtend := by
  simp only [Powerup.tick]
  split
  · rfl
  · split
    · rfl
    · split
      · split <;> rfl
      · rfl

/-- Only a powerup that carries an extend has an orb of that kind. -/
theorem hasExtend_of_touched {p : Powerup} {settings : PowerupSettings} {player : Vec2}
    (h : p.touched settings player = .collected .extend) : p.hasExtend = true := by
  simp only [Powerup.touched] at h
  split at h
  · next orb position hfound =>
    have hmem := List.mem_of_find?_eq_some hfound
    injection h with horb
    subst horb
    exact (by simpa [Powerup.orbs] using hmem : p.hasExtend = true ∧ _).1
  · cases h

/-- A powerup grants an orb of its own that the player touches. -/
theorem exists_touched_of_tick {p : Powerup} {target : Option Vec2} {settings : PowerupSettings}
    {dt : Float32} {orb : Orb} (h : (p.tick target settings dt).1 = .collected orb) :
    ∃ player, (p.tick target settings dt).2.touched settings player = .collected orb := by
  simp only [Powerup.tick] at h ⊢
  split at h
  · cases h
  · next hfalling =>
    rw [if_neg hfalling]
    split at h
    · cases h
    · next player =>
      refine ⟨player, ?_⟩
      split at h
      · next hnear =>
        rw [if_pos hnear]
        split at h
        · cases h
        · next hcharging =>
          rw [if_neg hcharging]
          exact h
      · next hfar =>
        rw [if_neg hfar]
        exact h

/-- What one powerup brings, at most the extend that it carries. -/
theorem exists_pickedUp_visit (catalog : Catalog) (target : Option Vec2) (dt : Float32) (p : Pickup)
    (powerup : Powerup) :
    ∃ told, PickedUp told p (p.visit catalog target dt powerup).2.2 ∧
      told.countP grantsExtend +
          ((p.visit catalog target dt powerup).1 &&
            (p.visit catalog target dt powerup).2.1.hasExtend).toNat ≤
        powerup.hasExtend.toNat := by
  have hextend := hasExtend_tick powerup target catalog.powerup dt
  simp only [Pickup.visit]
  split
  · refine ⟨[], .refl p, ?_⟩
    rw [hextend]
    simp
  · exact ⟨[], .refl p, Nat.zero_le _⟩
  · next orb houtcome =>
    obtain ⟨told, hflash, hnone⟩ := PickedUp.flash catalog.settings.effectTime
      (p.collect catalog.settings.player orb powerup.position) powerup.position
    refine ⟨_, (PickedUp.collect _ p orb powerup.position).trans hflash, ?_⟩
    rw [List.countP_append, hnone, countP_singleton_eq]
    by_cases horb : orb = .extend
    · obtain ⟨player, htouched⟩ := exists_touched_of_tick houtcome
      rw [horb] at htouched
      rw [horb, ← hextend, hasExtend_of_touched htouched]
      exact Nat.le_refl 1
    · simp [grantsExtend, horb]
  · next houtcome =>
    obtain ⟨told, hflash, hnone⟩ := PickedUp.flash catalog.settings.effectTime
      (((powerup.tick target catalog.powerup dt).2.orbs catalog.powerup).foldl
        (fun p orb => p.collect catalog.settings.player orb.1 orb.2) p) powerup.position
    refine ⟨_, (PickedUp.foldl_collect _ _ p).trans hflash, ?_⟩
    rw [List.countP_append, hnone, ← hextend]
    cases hcarries : (powerup.tick target catalog.powerup dt).2.hasExtend <;>
      simp [Powerup.orbs, hcarries, grantsExtend]

/-- What some powerups bring, at most the extends that they carry and do not keep. -/
theorem exists_pickedUp_sweepSlots (catalog : Catalog) (target : Option Vec2) (dt : Float32)
    (slots : List (Slot Powerup)) (p : Pickup) :
    ∃ told,
      PickedUp told p
        (Pool.sweepSlots (Pickup.visit catalog target dt) slots p).2.2 ∧
      told.countP grantsExtend +
          (Pool.sweepSlots (Pickup.visit catalog target dt) slots p).1.countP (·.item.hasExtend) ≤
        slots.countP (·.item.hasExtend) := by
  induction slots generalizing p with
  | nil => exact ⟨[], .refl p, Nat.le_refl _⟩
  | cons slot slots ih =>
    obtain ⟨told, hfirst, hgrants⟩ := exists_pickedUp_visit catalog target dt p slot.item
    obtain ⟨told', hrest, hgrants'⟩ := ih (p.visit catalog target dt slot.item).2.2
    have hcons : ∀ (slot : Slot Powerup) slots, (slot :: slots).countP (·.item.hasExtend) =
        slot.item.hasExtend.toNat + slots.countP (·.item.hasExtend) := by
      intro slot slots
      rw [← List.singleton_append, List.countP_append, countP_singleton_eq]
    rw [Pool.sweepSlots_cons]
    refine ⟨told ++ told', ?_, ?_⟩
    · split <;> exact hfirst.trans hrest
    · rw [List.countP_append, hcons]
      split
      · next hkeep =>
        rw [hkeep, Bool.true_and] at hgrants
        simp only [hcons]
        omega
      · dsimp only
        omega

theorem books_tickPowerups (w : World) (dt : Float32) : Books [] w (w.tickPowerups dt) := by
  obtain ⟨told, hpicked, hgrants⟩ := exists_pickedUp_sweepSlots w.catalog w.livingPlayer dt
    w.powerups.active ⟨w.player, w.effects, w.events⟩
  have hkills : told.filterMap kill? = [] := by
    rw [List.filterMap_eq_nil_iff]
    intro event hevent
    have htells := hpicked.told event hevent
    cases event <;> first | rfl | cases htells
  have hpoints : points told = 0 := by
    rw [points, hkills]
    rfl
  have hzero : ∀ column : GameEvent → Bool,
      (∀ event, PickedUp.tellsOf event = true → column event = false) →
      told.countP column = 0 := fun column hcolumn =>
    countP_eq_zero_of_forall fun event hevent => hcolumn event (hpicked.told event hevent)
  have hearned := hzero earnsExtend fun event h => by cases event <;> first | rfl | cases h
  have hbrought := hzero bringsExtend fun event h => by cases event <;> first | rfl | cases h
  have hlost := hzero costsLife fun event h => by cases event <;> first | rfl | cases h
  have hended := hzero endsRun fun event h => by cases event <;> first | rfl | cases h
  have hcarriers : told.countP grantsExtend + (w.tickPowerups dt).carriers ≤ w.carriers := by
    simp only [carriers, tickPowerups, Pool.items, Pool.sweep_eq, List.countP_map]
    exact hgrants
  have hevents : (w.tickPowerups dt).events.toList = w.events.toList ++ told := by
    simp only [tickPowerups, Pool.sweep_eq]
    exact hpicked.events
  have hlives : (w.tickPowerups dt).player.lives = w.player.lives + told.countP grantsExtend := by
    simp only [tickPowerups, Pool.sweep_eq]
    exact hpicked.lives
  refine ⟨told, hevents, hkills, hended, rfl, ?_, ?_, fun _ h => h, fun h => h, fun _ => hearned,
    ?_, ?_, ?_⟩
  · rw [hpoints]
    rfl
  · rw [hearned]
    rfl
  · rw [hbrought, hearned]
    exact Nat.le_refl _
  · rw [hbrought, Nat.zero_add]
    exact hcarriers
  · rw [hlost, hlives]
    rfl

/-! ### Kills -/

/-- The place of an enemy, and the points that a kill of it brings. -/
def killOf (catalog : Catalog) (enemy : Enemy) : Vec2 × Nat :=
  (enemy.position, ((catalog.enemy? enemy.archetype).map (·.score)).getD 0)

/-- An enemy that is removed is a kill, and there is no other. -/
theorem kills_engage (s : Skirmish) (toll : Toll) (enemy : Enemy) :
    (s.engage toll enemy).2.2.kills =
      if (s.engage toll enemy).1 then toll.kills
      else killOf s.catalog (s.engage toll enemy).2.1 :: toll.kills := by
  cases hknown : s.catalog.enemy? enemy.archetype with
  | none => simp only [Skirmish.engage, hknown, if_true]
  | some archetype =>
    rw [Skirmish.engage_eq hknown]
    simp only [Skirmish.wound]
    split
    · rfl
    · split
      · rfl
      · simp [killOf, Enemy.takeDamage, Skirmish.struck, hknown]

/-- The enemies that are removed, in order, are the kills. -/
theorem kills_sweepSlots (s : Skirmish) (slots : List (Slot Enemy)) (toll : Toll) :
    (Pool.sweepSlots s.engage slots toll).2.2.kills.reverse =
      toll.kills.reverse ++
        (Pool.sweepSlots s.engage slots toll).2.1.map (killOf s.catalog ·.item) := by
  induction slots generalizing toll with
  | nil => simp [Pool.sweepSlots]
  | cons slot slots ih =>
    rw [Pool.sweepSlots_cons]
    have hfirst := kills_engage s toll slot.item
    split
    · next hkeep =>
      rw [hkeep] at hfirst
      simp only [ih, hfirst, if_true]
    · next hkeep =>
      rw [if_neg hkeep] at hfirst
      simp only [ih, hfirst]
      simp

theorem enemies_resolvePlayer (w : World) : w.resolvePlayer.enemies = w.enemies := by
  obtain ⟨shots, hspare | hhurt⟩ := w.resolvePlayer_cases
  · rw [hspare]
  · obtain ⟨player, effects, events, hhit⟩ := { w with shots := shots }.exists_hurtPlayer_eq
    rw [hhurt, hhit]

/-- The enemies that the resolution of hits removes. Their slots come behind the free ones. -/
def felled (w : World) : List (Slot Enemy) :=
  w.resolveHits.enemies.free.drop w.enemies.free.length

theorem resolveHits_enemies (w : World) : w.resolveHits.enemies = w.engagement.1 := by
  rw [resolveHits, enemies_resolvePlayer, w.aside_resolveEnemies.enemies]
  rfl

theorem felled_eq (w : World) :
    w.felled =
      (Pool.sweepSlots w.skirmish.engage w.enemies.active
        ⟨w.fireControl w.livingPlayer 0, [], []⟩).2.1 := by
  rw [felled, resolveHits_enemies, engagement, Pool.sweep_eq, List.drop_left]

/-- **The enemies that were felled** are removed, each of them once, and the others stay. -/
theorem resolveHits_felled (w : World) :
    w.resolveHits.enemies.free = w.enemies.free ++ w.felled ∧
      (w.resolveHits.enemies.active.map (·.index) ++ w.felled.map (·.index)).Perm
        (w.enemies.active.map (·.index)) := by
  rw [felled_eq, resolveHits_enemies, engagement, Pool.sweep_eq]
  exact ⟨rfl, Pool.sweepSlots_indices _ _ _⟩

theorem shown_announceKill (w : World) (kill : Vec2 × Nat) :
    Shown [kill] w (w.announceKill kill) := by
  have htold : Shown [kill] w (w.announce (.enemyKilled kill.1 kill.2)) := by
    refine ⟨rfl, rfl, rfl, rfl, rfl, rfl, [.enemyKilled kill.1 kill.2], Array.toList_push, rfl,
      fun event hevent => ?_⟩
    rw [List.mem_singleton.mp hevent]
    rfl
  exact htold.trans (shown_addEffect _ _ _)

theorem shown_foldl_announceKill (kills : List (Vec2 × Nat)) (w : World) :
    Shown kills w (kills.foldl announceKill w) := by
  induction kills generalizing w with
  | nil => exact .refl w
  | cons kill kills ih => exact (w.shown_announceKill kill).trans (ih _)

/-- **The first pass.** Its kills are the enemies that were felled. -/
theorem books_resolveEnemies (w : World) :
    Books (w.felled.map (killOf w.catalog ·.item)) w w.resolveEnemies := by
  obtain ⟨⟨launches, hexchange⟩, -⟩ :=
    w.skirmish.exchange_sweepSlots ⟨w.fireControl w.livingPlayer 0, [], []⟩ rfl w.enemies.active
  have hkills := kills_sweepSlots w.skirmish w.enemies.active
    ⟨w.fireControl w.livingPlayer 0, [], []⟩
  rw [← felled_eq, List.reverse_nil, List.nil_append] at hkills
  have htoll : w.engagement.2 = (Pool.sweepSlots w.skirmish.engage w.enemies.active
      ⟨w.fireControl w.livingPlayer 0, [], []⟩).2.2 := by
    rw [engagement, Pool.sweep_eq]
  rw [← htoll] at hexchange hkills
  have hengaged : Shown [] w ({ w with enemies := w.engagement.1 }.adopt w.engagement.2.fire) :=
    .of_launches hexchange.events rfl rfl rfl rfl rfl rfl
  have hcontacts := shown_foldl (fun w contact => w.shown_addEffect contact.1 contact.2)
    ({ w with enemies := w.engagement.1 }.adopt w.engagement.2.fire)
    w.engagement.2.contacts.reverse
  have htold := (hengaged.trans hcontacts).trans
    (shown_foldl_announceKill w.engagement.2.kills.reverse _)
  have hworth : w.engagement.2.kills.reverse.foldl (fun points kill => points + kill.2) 0 =
      worth w.engagement.2.kills.reverse := by
    rw [foldl_add_eq_worth, Nat.zero_add]
  have haward := htold.awardScore
  simp only [List.nil_append, ← hworth] at haward
  rw [show w.felled.map (killOf w.catalog ·.item) = w.engagement.2.kills.reverse from hkills.symm]
  exact haward

theorem books_resolveHits (w : World) :
    Books (w.felled.map (killOf w.catalog ·.item)) w w.resolveHits :=
  List.append_nil (w.felled.map (killOf w.catalog ·.item)) ▸
    w.books_resolveEnemies.trans (books_resolvePlayer _)

/-! ### A whole tick -/

theorem books_dispatchSpawn (timing : LegTiming) (w : World) (event : SpawnEvent) :
    Books [] w (w.dispatchSpawn timing event) := by
  have hdecided : ∀ permitted, Books [] w { w with carryOver := permitted } :=
    fun _ => Shown.books (.of_eq rfl rfl rfl rfl rfl rfl rfl)
  simp only [dispatchSpawn]
  split
  · split
    · exact (hdecided _).trans (shown_spawnEnemy _ _ _ _).books
    · exact (hdecided _).trans (books_spawnPowerup _ _)
  · exact hdecided _

theorem books_foldl {β : Type} {f : World → β → World} (hf : ∀ w x, Books [] w (f w x)) (w : World)
    (xs : List β) : Books [] w (xs.foldl f w) :=
  List.foldlRecOn xs f (Shown.refl w).books fun w' h x _ => h.trans (hf w' x)

theorem books_onTimelineEvent (w : World) (event : TimelineEvent Float) (now : Float) :
    Books [] w (w.onTimelineEvent event now) := by
  cases event with
  | stageStarted stage loopCount start =>
    exact Shown.books (.of_push (.stageStarted stage
      ((w.catalog.stages[stage]?.map (·.name)).getD "") loopCount start)
      rfl rfl rfl rfl rfl rfl rfl rfl rfl)
  | beat info =>
    have hspawned := books_foldl (books_dispatchSpawn ((w.announceBeat info).legTiming now))
      (w.announceBeat info) ((w.announceBeat info).dueSpawns info)
    have hheard : ∀ w : World, Shown [] w (w.broadcastBeat now) :=
      fun _ => .of_eq rfl rfl rfl rfl rfl rfl rfl
    exact ((w.shown_announceBeat info).books.trans hspawned).trans (hheard _).books

variable {α : Type} [AudioPlayer α Float]

theorem books_followTimeline (w : World) (now : Float) (audio : α) :
    Books [] w (w.followTimeline now audio).1 := by
  have hadvanced : Shown [] w
      { w with timeline := (w.timeline.advance now w.catalog.stages audio).2.1 } :=
    .of_eq rfl rfl rfl rfl rfl rfl rfl
  simp only [followTimeline]
  split
  · exact hadvanced.books.trans (books_onTimelineEvent _ _ now)
  · exact hadvanced.books

/-- A tick that is played, up to the resolution of its hits. -/
def poised (p : PlayedTick α) : World :=
  let w := ({ p.world with tickCount := p.world.tickCount + 1 }.followTimeline p.now p.audio).1
  (((w.tickEnemies p.now).tickPlayer p.input p.dt).tickPowerups p.dt).tickShots p.dt

theorem simulate_eq_poised (p : PlayedTick α) :
    (p.world.simulate p.input p.now p.audio p.dt).1 = (poised p).resolveHits :=
  rfl

/-- Everything before the hits. -/
theorem books_poised (p : PlayedTick α) : Books [] p.world (poised p) := by
  have hcounted : Shown [] p.world { p.world with tickCount := p.world.tickCount + 1 } :=
    .of_eq rfl rfl rfl rfl rfl rfl rfl
  have hfollowed := books_followTimeline { p.world with tickCount := p.world.tickCount + 1 } p.now
    p.audio
  have hmoved : ∀ w : World, Shown [] w (w.tickShots p.dt) :=
    fun _ => .of_eq rfl rfl rfl rfl rfl rfl rfl
  have hfought : ∀ w : World, Shown [] w ((w.tickEnemies p.now).tickPlayer p.input p.dt) :=
    fun w => (w.shown_tickEnemies p.now).trans (shown_tickPlayer _ p.input p.dt)
  exact (((hcounted.books.trans hfollowed).trans (hfought _).books).trans
    (books_tickPowerups _ p.dt)).trans (hmoved _).books

/-- **A tick that is played.** -/
theorem books_simulate (p : PlayedTick α) :
    Books ((poised p).felled.map (killOf (poised p).catalog ·.item)) p.world
      (p.world.simulate p.input p.now p.audio p.dt).1 := by
  rw [simulate_eq_poised]
  exact (books_poised p).trans (books_resolveHits _)

/-! ### The other operations -/

theorem shown_age (w : World) (dt : Float32) : Shown [] w (w.age dt) := by
  rw [age]
  split
  · exact .of_eq rfl rfl rfl rfl rfl rfl rfl
  · exact .refl w

theorem shown_pause (w : World) (now : Float) (audio : α) :
    Shown [] w (w.pause now audio).2.1 := by
  rcases w.pause_cases now audio with hnone | ⟨hplaying, hactive⟩
  · rw [hnone]
    exact .refl w
  · rw [pause_eq hplaying hactive]
    exact .of_push .paused rfl rfl rfl rfl rfl rfl rfl rfl rfl

theorem shown_resume (w : World) (now : Float) (audio : α) :
    Shown [] w (w.resume now audio).2.1 := by
  rcases w.resume_cases now audio with hnone | ⟨hpaused, since, hstate⟩
  · rw [hnone]
    exact .refl w
  · rw [resume_eq hpaused hstate]
    exact .of_push (.resumed (ClockTime.elapsed since now)) rfl rfl rfl rfl rfl rfl rfl rfl rfl

theorem shown_ready (w : World) (input : TickInput) (now : Float) (audio : α) (dt : Float32) :
    Shown [] w (w.ready input now audio dt).1 := by
  rw [ready]
  split
  · rw [togglePause]
    split
    · exact (w.shown_age dt).trans (shown_pause _ _ _)
    · exact (w.shown_age dt).trans (shown_resume _ _ _)
    · exact w.shown_age dt
  · exact w.shown_age dt

/-- **The beginning of a run**, from a world in which nothing has happened yet. -/
theorem books_startGame (w : World) (now : Float) (audio : α) :
    Books [] (w.afresh (w.timeline.start now w.catalog.stages audio).2.1)
      (w.startGame now audio).1 := by
  rw [startGame_eq]
  split
  · next event hevent =>
    have hplaying : Shown [] (w.afresh (w.timeline.start now w.catalog.stages audio).2.1)
        { w.afresh (w.timeline.start now w.catalog.stages audio).2.1 with phase := .playing } :=
      .of_eq rfl rfl rfl rfl rfl rfl rfl
    exact hplaying.books.trans (books_onTimelineEvent _ event now)
  · exact Shown.books (.of_eq rfl rfl rfl rfl rfl rfl rfl)

end World
end BulletHell
