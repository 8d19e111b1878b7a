import BulletHell.Proofs.World.Quiet
import BulletHell.Proofs.World.Record

/-!
# The ledger of a run

Points, extends and lives move through many hands. A kill brings points, points earn extends, an
extend waits for a powerup, the powerup for a player who touches it, and a hit takes a life. Each
time the audience is told. The ledger compares what a world has with what was told: between any two
moments of a run the books agree, whatever happened.

An entry covers a stretch of play. It is kept for each operation by itself, and entries of two
stretches add up. Most of what happens in a tick is of no concern to the books.

## Why the extends come with inequalities

Several thresholds passed at once leave one extend pending. A pending extend waits for a shielded
player, and for room in the pool. A powerup that carries one may fall off the bottom. So extends
get lost on the way from the score to the player, but none is made.

## Main definitions

* `GameEvent.kill?`, `earnsExtend`, `bringsExtend`, `grantsExtend`, `costsLife`, `endsRun` — what
  an event has to do with the ledger
* `World.Entry` — the books agree about what was told between two worlds
* `World.Books` — the same with the event queue, and with the kills in it
* `World.Shown` — kills at most were told, and nothing changed that the books are about

## Main results

* `World.Entry.trans`, `World.Books.trans` — entries add up
* `World.Shown.books` — what only makes a show
* `World.shown_tickEnemies`, `World.shown_tickPlayer`, `World.shown_announceBeat` — much of a tick
-/

namespace BulletHell

/-! ### Events -/

namespace GameEvent

/-- The place and the points of a kill. -/
def kill? : GameEvent → Option (Vec2 × Nat)
  | enemyKilled position score => some (position, score)
  | _ => none

/-- A threshold of the score was passed. -/
def earnsExtend : GameEvent → Bool
  | extendEarned _ => true
  | _ => false

/-- A powerup came that carries an extend. -/
def bringsExtend : GameEvent → Bool
  | powerupSpawned _ extend => extend
  | _ => false

/-- The player collected an extend. -/
def grantsExtend : GameEvent → Bool
  | powerupCollected orb _ => orb = .extend
  | _ => false

/-- The player lost a life. -/
def costsLife : GameEvent → Bool
  | playerHit _ shieldLost => !shieldLost
  | playerDied _ => true
  | _ => false

/-- The run is over. -/
def endsRun : GameEvent → Bool
  | gameOver _ => true
  | _ => false

/-- Is the event about extends, lives or the end of the run? -/
def counts : GameEvent → Bool
  | extendEarned .. | powerupSpawned .. | powerupCollected .. | playerHit .. | playerDied ..
  | gameOver .. => true
  | _ => false

/-- The points of some kills. -/
def worth : List (Vec2 × Nat) → Nat
  | [] => 0
  | kill :: kills => kill.2 + worth kills

theorem worth_append (kills kills' : List (Vec2 × Nat)) :
    worth (kills ++ kills') = worth kills + worth kills' := by
  induction kills with
  | nil => exact (Nat.zero_add _).symm
  | cons kill kills ih => rw [List.cons_append, worth, worth, ih, Nat.add_assoc]

theorem foldl_add_eq_worth (kills : List (Vec2 × Nat)) (points : Nat) :
    kills.foldl (fun points kill => points + kill.2) points = points + worth kills := by
  induction kills generalizing points with
  | nil => rfl
  | cons kill kills ih => rw [List.foldl_cons, ih, worth, Nat.add_assoc]

/-- The points of all kills among some events. -/
def points (told : List GameEvent) : Nat :=
  worth (told.filterMap kill?)

theorem points_append (told told' : List GameEvent) :
    points (told ++ told') = points told + points told' := by
  rw [points, List.filterMap_append, worth_append, points, points]

/-- An event that does not count stands in no column but that of the kills. -/
theorem columns_of_counts {event : GameEvent} (h : event.counts = false) :
    event.earnsExtend = false ∧ event.bringsExtend = false ∧ event.grantsExtend = false ∧
      event.costsLife = false ∧ event.endsRun = false := by
  cases event with
  | extendEarned | powerupSpawned | powerupCollected | playerHit | playerDied | gameOver => cases h
  | _ => exact ⟨rfl, rfl, rfl, rfl, rfl⟩

theorem countP_eq_zero_of_forall {told : List GameEvent} {column : GameEvent → Bool}
    (h : ∀ event ∈ told, column event = false) : told.countP column = 0 := by
  rw [List.countP_eq_zero]
  intro event hevent
  rw [h event hevent]
  exact Bool.false_ne_true

/-- The columns without events that count. -/
theorem countP_of_counts {told : List GameEvent} (h : ∀ event ∈ told, event.counts = false) :
    told.countP earnsExtend = 0 ∧ told.countP bringsExtend = 0 ∧ told.countP grantsExtend = 0 ∧
      told.countP costsLife = 0 ∧ told.countP endsRun = 0 := by
  refine ⟨?_, ?_, ?_, ?_, ?_⟩
  · exact countP_eq_zero_of_forall fun event hevent => (columns_of_counts (h event hevent)).1
  · exact countP_eq_zero_of_forall fun event hevent => (columns_of_counts (h event hevent)).2.1
  · exact countP_eq_zero_of_forall fun event hevent => (columns_of_counts (h event hevent)).2.2.1
  · exact countP_eq_zero_of_forall fun event hevent => (columns_of_counts (h event hevent)).2.2.2.1
  · exact countP_eq_zero_of_forall fun event hevent => (columns_of_counts (h event hevent)).2.2.2.2

/-- The columns once some extends were earned as well. -/
theorem columns_append_earned {told : List GameEvent} (h : ∀ event ∈ told, event.counts = false)
    (n score : Nat) {told' : List GameEvent}
    (htold' : told' = told ++ List.replicate n (.extendEarned score)) :
    told'.filterMap kill? = told.filterMap kill? ∧ told'.countP earnsExtend = n ∧
      told'.countP bringsExtend = 0 ∧ told'.countP grantsExtend = 0 ∧
      told'.countP costsLife = 0 ∧ told'.countP endsRun = 0 := by
  obtain ⟨hearned, hbrought, hgranted, hlost, hended⟩ := countP_of_counts h
  have hkills : (List.replicate n (extendEarned score)).filterMap kill? = [] := by
    rw [List.filterMap_eq_nil_iff]
    intro event hevent
    rw [List.eq_of_mem_replicate hevent]
    rfl
  have hcolumn : ∀ column : GameEvent → Bool, told'.countP column =
      told.countP column + if column (.extendEarned score) then n else 0 := by
    intro column
    rw [htold', List.countP_append, List.countP_replicate]
  refine ⟨?_, ?_, ?_, ?_, ?_, ?_⟩
  · rw [htold', List.filterMap_append, hkills, List.append_nil]
  · rw [hcolumn, hearned, Nat.zero_add]
    rfl
  · rw [hcolumn, hbrought]
    rfl
  · rw [hcolumn, hgranted]
    rfl
  · rw [hcolumn, hlost]
    rfl
  · rw [hcolumn, hended]
    rfl

end GameEvent

namespace World

open GameEvent

/-- The active powerups that carry an extend. -/
def carriers (w : World) : Nat :=
  w.powerups.items.countP (·.hasExtend)

/-! ### Entries -/

/-- The books agree about a stretch of play in which this was told. -/
structure Entry (w w' : World) (told : List GameEvent) : Prop where
  catalog : w'.catalog = w.catalog
  score : w'.score = w.score + points told
  /-- Every extend that was earned moved the threshold once. -/
  nextExtend : w'.nextExtend =
    w.nextExtend + w.catalog.settings.extendEvery * told.countP earnsExtend
  /-- The threshold stays ahead of the score, but by no more than its step. -/
  ahead : 0 < w.catalog.settings.extendEvery → w.score < w.nextExtend → w'.score < w'.nextExtend
  near : w.nextExtend ≤ w.score + w.catalog.settings.extendEvery →
    w'.nextExtend ≤ w'.score + w.catalog.settings.extendEvery
  unearned : w.catalog.settings.extendEvery = 0 → told.countP earnsExtend = 0
  pending : told.countP bringsExtend + w'.extendPending.toNat ≤
    told.countP earnsExtend + w.extendPending.toNat
  carried : told.countP grantsExtend + w'.carriers ≤ told.countP bringsExtend + w.carriers
  lives : w'.player.lives + told.countP costsLife = w.player.lives + told.countP grantsExtend

namespace Entry

variable {w w' w'' : World} {told told' : List GameEvent}

/-- Points were awarded, and extends were earned with them. -/
theorem of_earned {n : Nat} (hcatalog : w'.catalog = w.catalog)
    (hscore : w'.score = w.score + points told)
    (hnext : w'.nextExtend = w.nextExtend + w.catalog.settings.extendEvery * n)
    (hahead : 0 < w.catalog.settings.extendEvery → w.score < w.nextExtend →
      w'.score < w'.nextExtend)
    (hnear : n ≠ 0 → 0 < w.catalog.settings.extendEvery ∧
      w'.nextExtend ≤ w'.score + w.catalog.settings.extendEvery)
    (hpending : w'.extendPending = (w.extendPending || decide (0 < n)))
    (hpowerups : w'.powerups = w.powerups) (hlives : w'.player.lives = w.player.lives)
    (hearned : told.countP earnsExtend = n) (hbrought : told.countP bringsExtend = 0)
    (hgranted : told.countP grantsExtend = 0) (hlost : told.countP costsLife = 0) :
    Entry w w' told := by
  have hcarriers : w'.carriers = w.carriers := by rw [carriers, carriers, hpowerups]
  refine ⟨hcatalog, hscore, by rw [hnext, hearned], hahead, fun h => ?_, fun hzero => ?_, ?_,
    by omega, by omega⟩
  · by_cases hn : n = 0
    · rw [hn, Nat.mul_zero] at hnext
      omega
    · exact (hnear hn).2
  · by_cases hn : n = 0
    · exact hearned.trans hn
    · exact absurd (hnear hn).1 (by omega)
  · rw [hbrought, hearned, hpending]
    cases w.extendPending with
    | true =>
      simp only [Bool.true_or, Bool.toNat_true]
      omega
    | false =>
      rw [Bool.false_or, Bool.toNat_false, Nat.zero_add, Nat.add_zero]
      by_cases hn : 0 < n
      · rw [decide_eq_true hn]
        exact hn
      · rw [decide_eq_false hn]
        exact Nat.zero_le n

/-- Two stretches of play. -/
theorem trans (h : Entry w w' told) (h' : Entry w' w'' told') : Entry w w'' (told ++ told') := by
  have hscore := h.score
  have hscore' := h'.score
  have hnext := h.nextExtend
  have hnext' := h'.nextExtend
  have hahead' := h'.ahead
  have hnear' := h'.near
  have hunearned' := h'.unearned
  have hpending := h.pending
  have hpending' := h'.pending
  have hcarried := h.carried
  have hcarried' := h'.carried
  have hlives := h.lives
  have hlives' := h'.lives
  rw [h.catalog] at hnext' hahead' hnear' hunearned'
  refine ⟨h'.catalog.trans h.catalog, ?_, ?_, fun hpos hahead => hahead' hpos (h.ahead hpos hahead),
    fun hnear => hnear' (h.near hnear), fun hzero => ?_, ?_, ?_, ?_⟩
  · rw [points_append]
    omega
  · rw [List.countP_append, Nat.mul_add]
    omega
  · rw [List.countP_append, h.unearned hzero, hunearned' hzero]
  · rw [List.countP_append, List.countP_append]
    omega
  · rw [List.countP_append, List.countP_append]
    omega
  · rw [List.countP_append, List.countP_append]
    omega

end Entry

/-- The books agree about all that was queued meanwhile. These are the kills in it, and it has not
ended the run. -/
def Books (kills : List (Vec2 × Nat)) (w w' : World) : Prop :=
  ∃ told, w'.events.toList = w.events.toList ++ told ∧ told.filterMap kill? = kills ∧
    told.countP endsRun = 0 ∧ Entry w w' told

theorem Books.trans {kills kills' : List (Vec2 × Nat)} {w w' w'' : World}
    (h : Books kills w w') (h' : Books kills' w' w'') : Books (kills ++ kills') w w'' := by
  obtain ⟨told, hevents, hkills, hgoesOn, hentry⟩ := h
  obtain ⟨told', hevents', hkills', hgoesOn', hentry'⟩ := h'
  refine ⟨told ++ told', ?_, ?_, ?_, hentry.trans hentry'⟩
  · rw [hevents', hevents, List.append_assoc]
  · rw [List.filterMap_append, hkills, hkills']
  · rw [List.countP_append, hgoesOn, hgoesOn']

/-- These kills were told, and nothing that counts. What the books are about is still the same. -/
structure Shown (kills : List (Vec2 × Nat)) (w w' : World) : Prop where
  catalog : w'.catalog = w.catalog
  score : w'.score = w.score
  nextExtend : w'.nextExtend = w.nextExtend
  extendPending : w'.extendPending = w.extendPending
  powerups : w'.powerups = w.powerups
  lives : w'.player.lives = w.player.lives
  events : ∃ told, w'.events.toList = w.events.toList ++ told ∧ told.filterMap kill? = kills ∧
    ∀ event ∈ told, event.counts = false

namespace Shown

variable {w w' w'' : World} {kills kills' : List (Vec2 × Nat)}

/-- Nothing was told. -/
theorem of_eq (hevents : w'.events = w.events) (hcatalog : w'.catalog = w.catalog)
    (hscore : w'.score = w.score) (hnext : w'.nextExtend = w.nextExtend)
    (hpending : w'.extendPending = w.extendPending) (hpowerups : w'.powerups = w.powerups)
    (hlives : w'.player.lives = w.player.lives) : Shown [] w w' :=
  ⟨hcatalog, hscore, hnext, hpending, hpowerups, hlives, [], by rw [hevents, List.append_nil], rfl,
    fun _ h => by cases h⟩

theorem refl (w : World) : Shown [] w w :=
  .of_eq rfl rfl rfl rfl rfl rfl rfl

theorem trans (h : Shown kills w w') (h' : Shown kills' w' w'') :
    Shown (kills ++ kills') w w'' := by
  obtain ⟨told, hevents, hkills, htold⟩ := h.events
  obtain ⟨told', hevents', hkills', htold'⟩ := h'.events
  refine ⟨h'.catalog.trans h.catalog, h'.score.trans h.score, h'.nextExtend.trans h.nextExtend,
    h'.extendPending.trans h.extendPending, h'.powerups.trans h.powerups, h'.lives.trans h.lives,
    told ++ told', ?_, ?_, fun event hevent => ?_⟩
  · rw [hevents', hevents, List.append_assoc]
  · rw [List.filterMap_append, hkills, hkills']
  · rcases List.mem_append.mp hevent with hmem | hmem
    · exact htold event hmem
    · exact htold' event hmem

/-- One announcement, and nothing else that concerns the books. -/
theorem of_push (event : GameEvent) (hevents : w'.events = w.events.push event)
    (hevent : event.counts = false) (hkill : event.kill? = none) (hcatalog : w'.catalog = w.catalog)
    (hscore : w'.score = w.score) (hnext : w'.nextExtend = w.nextExtend)
    (hpending : w'.extendPending = w.extendPending) (hpowerups : w'.powerups = w.powerups)
    (hlives : w'.player.lives = w.player.lives) : Shown [] w w' := by
  refine ⟨hcatalog, hscore, hnext, hpending, hpowerups, hlives, [event], ?_, ?_, fun e he => ?_⟩
  · rw [hevents, Array.toList_push]
  · rw [List.filterMap_cons_none hkill, List.filterMap_nil]
  · obtain rfl := List.mem_singleton.mp he
    exact hevent

/-- Fire: shots were launched and announced. -/
theorem of_launches {ls : List Launch}
    (hevents : w'.events.toList = w.events.toList ++ ls.map (·.event))
    (hcatalog : w'.catalog = w.catalog) (hscore : w'.score = w.score)
    (hnext : w'.nextExtend = w.nextExtend) (hpending : w'.extendPending = w.extendPending)
    (hpowerups : w'.powerups = w.powerups) (hlives : w'.player.lives = w.player.lives) :
    Shown [] w w' := by
  refine ⟨hcatalog, hscore, hnext, hpending, hpowerups, hlives, ls.map (·.event), hevents, ?_,
    fun event hevent => ?_⟩
  · rw [List.filterMap_eq_nil_iff]
    intro event hevent
    obtain ⟨l, -, rfl⟩ := List.mem_map.mp hevent
    rfl
  · obtain ⟨l, -, rfl⟩ := List.mem_map.mp hevent
    rfl

/-- Without kills the books agree. -/
theorem books (h : Shown [] w w') : Books [] w w' := by
  obtain ⟨told, hevents, hkills, htold⟩ := h.events
  obtain ⟨hearned, hbrought, hgranted, hlost, hended⟩ := countP_of_counts htold
  have hpoints : points told = 0 := by
    rw [points, hkills]
    rfl
  refine ⟨told, hevents, hkills, hended, .of_earned (n := 0) h.catalog ?_ h.nextExtend
    (fun _ hahead => ?_) (fun hnone => absurd rfl hnone) ?_ h.powerups h.lives hearned hbrought
    hgranted hlost⟩
  · rw [h.score, hpoints, Nat.add_zero]
  · rw [h.score, h.nextExtend]
    exact hahead
  · rw [h.extendPending]
    exact (Bool.or_false _).symm

end Shown

/-! ### What does not concern the books -/

theorem shown_addEffect (w : World) (kind : EffectKind) (position : Vec2) :
    Shown [] w (w.addEffect kind position) := by
  simp only [addEffect, showEffect]
  split
  · exact .refl w
  · exact .of_push (.effect kind position) rfl rfl rfl rfl rfl rfl rfl rfl rfl

theorem shown_foldl {β : Type} {f : World → β → World} (hf : ∀ w x, Shown [] w (f w x)) (w : World)
    (xs : List β) : Shown [] w (xs.foldl f w) :=
  List.foldlRecOn xs f (.refl w) fun w' h x _ => h.trans (hf w' x)

theorem shown_tickEnemies (w : World) (now : Float) : Shown [] w (w.tickEnemies now) := by
  obtain ⟨ls, hlaunches⟩ := w.launches_tickEnemies now
  exact .of_launches hlaunches.events rfl rfl rfl rfl rfl rfl

theorem shown_movePlayer (w : World) (input : TickInput) (dt : Float32) :
    Shown [] w (w.movePlayer input dt) := by
  obtain ⟨ls, hlaunches⟩ := (w.setOut input.movement dt).launches_workGate input.fire
  have hlives : (w.movePlayer input dt).player.lives = w.player.lives := by
    have hload : ∀ specs, (w.player.load specs).lives = w.player.lives := by
      intro specs
      rw [Player.load]
      split <;> rfl
    exact hload _
  exact .of_launches (w := w) hlaunches.events rfl rfl rfl rfl rfl hlives

theorem shown_useBomb (w : World) : Shown [] w w.useBomb.2 := by
  simp only [useBomb]
  split
  · exact .refl w
  · split
    · exact .refl w
    · next player hbomb =>
      have hlives : player.lives = w.player.lives := by
        rw [Player.useBomb?] at hbomb
        split at hbomb
        · cases hbomb
        · obtain rfl := Option.some.inj hbomb
          rfl
      have hspent : Shown [] w
          ({ w with player := player }.wipeHostileShots.announce (.bombUsed player.position)) :=
        .of_push (.bombUsed player.position) rfl rfl rfl rfl rfl rfl rfl rfl hlives
      exact hspent.trans (shown_addEffect _ _ _)

theorem shown_tickPlayer (w : World) (input : TickInput) (dt : Float32) :
    Shown [] w (w.tickPlayer input dt) := by
  simp only [tickPlayer]
  split
  · exact (w.shown_movePlayer input dt).trans (shown_useBomb _)
  · exact w.shown_movePlayer input dt

theorem shown_spawnEnemy (w : World) (event : SpawnEvent) (id : EnemyId) (timing : LegTiming) :
    Shown [] w (w.spawnEnemy event id timing) := by
  simp only [spawnEnemy]
  split
  · exact .refl w
  · split
    · exact .of_push (.spawnDropped event.beat) rfl rfl rfl rfl rfl rfl rfl rfl rfl
    · exact .of_push (.enemySpawned id (entryPoint event)) rfl rfl rfl rfl rfl rfl rfl rfl rfl

theorem shown_announceBeat (w : World) (info : BeatInfo) : Shown [] w (w.announceBeat info) := by
  have hbeat : ∀ w : World, Shown [] w (w.announce (.beat info.bar info.beat info.total)) :=
    fun _ => .of_push (.beat info.bar info.beat info.total) rfl rfl rfl rfl rfl rfl rfl rfl rfl
  simp only [announceBeat]
  split
  · have hbar : Shown [] w (w.announce (.bar info.bar)) :=
      .of_push (.bar info.bar) rfl rfl rfl rfl rfl rfl rfl rfl rfl
    exact hbar.trans (hbeat _)
  · exact hbeat w

end World
end BulletHell
