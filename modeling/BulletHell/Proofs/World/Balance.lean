import BulletHell.Proofs.World.Accounts

/-!
# Score, extends and lives balance

All events of a run, from its start on, account for the score, for the extends and for the lives
that the player has. It does not matter how the run goes on, how often it is paused, when the events
are collected, and whether the run is the first one of its world.

## Why two records

The kills are told by events, and the enemies are removed by the resolution of hits. Neither of the
two lists is read off the other: one is what the audience was told, the other one is what became of
the pool. The balance says that they belong together, in order.

## Main definitions

* `World.felledBy` — the enemies that a call removes by hits
* `World.Balanced` — a world, and what was told and felled since its run began

## Main results

* `World.entry_call`, `World.Balanced.call` — one call
* `World.score_extends_and_lives_balance` — every run
-/

namespace BulletHell

namespace World

open GameEvent

variable {α : Type} [AudioPlayer α Float]

/-- The enemies that a call removes by hits. -/
def felledBy (s : World × α) (c : Call) : List (Slot Enemy) :=
  ((played s c).map fun p => (poised p).felled).getD []

variable {s : World × α} {c : Call}

/-! ### One call -/

/-- A tick that is played removes enemies by hits, and no other call does. -/
theorem felledBy_of_played {p : PlayedTick α} (h : played s c = some p) :
    felledBy s c = (poised p).felled := by
  rw [felledBy, h]
  rfl

theorem felledBy_of_not_played (h : played s c = none) : felledBy s c = [] := by
  rw [felledBy, h]
  rfl

/-- A tick that is played, from the call on. -/
theorem books_of_played {p : PlayedTick α} (h : played s c = some p) :
    Books ((felledBy s c).map (killOf s.1.catalog ·.item)) s.1 (call s c).1 := by
  have hready : Shown [] s.1 p.world := by
    cases c with
    | tick input now dt =>
      obtain ⟨rfl, -⟩ := played_tick_eq_some h
      exact s.1.shown_ready input now s.2 dt
    | _ => cases h
  have hcatalog : (poised p).catalog = s.1.catalog := by
    obtain ⟨_, -, -, -, hentry⟩ := books_poised p
    exact hentry.catalog.trans hready.catalog
  obtain ⟨hcall, -, -⟩ := call_of_played h
  rw [hcall, felledBy_of_played h, ← hcatalog]
  exact hready.books.trans (books_simulate p)

/-- **A call** that neither begins a run nor collects the events: it keeps the books, or ends the
run. -/
theorem books_call (hstarts : c.starts = false) (hkeeps : c ≠ .drainEvents) :
    Books ((felledBy s c).map (killOf s.1.catalog ·.item)) s.1 (call s c).1 ∨
      ∃ w audio, Shown [] s.1 w ∧ call s c = w.endGame audio ∧ felledBy s c = [] := by
  cases c with
  | tick input now dt =>
    cases hplayed : played s (.tick input now dt) with
    | some p => exact .inl (books_of_played hplayed)
    | none =>
      have hready := s.1.shown_ready input now s.2 dt
      rw [felledBy_of_not_played hplayed]
      rcases tick_of_not_played hplayed hstarts with ⟨hcall, -⟩ | ⟨hcall, -, -⟩
      · rw [hcall]
        exact .inl hready.books
      · exact .inr ⟨_, _, hready, hcall, rfl⟩
  | startGame now => cases hstarts
  | pause now => exact .inl (s.1.shown_pause now s.2).books
  | resume now => exact .inl (s.1.shown_resume now s.2).books
  | drainEvents => exact absurd rfl hkeeps

/-- **A call that begins a run** keeps the books from there on. -/
theorem books_start (h : c.starts = true) :
    ∃ (w : World) (timeline : Timeline Float), (w.afresh timeline).events = s.1.events ∧
      Books [] (w.afresh timeline) (call s c).1 ∧ felledBy s c = [] := by
  cases c with
  | tick input now dt =>
    have hrestart : input.restart = true := h
    have hqueued : (s.1.age dt).events = s.1.events := by
      rw [age]
      split <;> rfl
    have hcall : call s (.tick input now dt) = (s.1.age dt).startGame now s.2 := by
      rw [call, tick_eq, hrestart, if_pos rfl]
    refine ⟨s.1.age dt, ((s.1.age dt).timeline.start now (s.1.age dt).catalog.stages s.2).2.1,
      hqueued, ?_, felledBy_of_not_played ?_⟩
    · rw [hcall]
      exact books_startGame _ now s.2
    · simp [played, hrestart]
  | startGame now => exact ⟨s.1, _, rfl, books_startGame _ now s.2, rfl⟩
  | _ => cases h

theorem entry_endGame (w : World) (audio : α) :
    Entry w (w.endGame audio).1 [.gameOver w.score] :=
  .of_earned (n := 0) rfl rfl rfl (fun _ hahead => hahead) (fun h => absurd rfl h)
    (Bool.or_false _).symm rfl rfl rfl rfl rfl rfl

/-- The books about the events of a call that does not begin a run. -/
theorem entry_call (hstarts : c.starts = false) :
    (emitted s c).filterMap kill? = (felledBy s c).map (killOf s.1.catalog ·.item) ∧
      Entry s.1 (call s c).1 (emitted s c) := by
  by_cases hdrain : c = .drainEvents
  · subst hdrain
    have hnone : emitted s .drainEvents = [] := List.drop_nil
    rw [hnone]
    exact ⟨rfl, .of_earned (n := 0) rfl rfl rfl (fun _ hahead => hahead) (fun h => absurd rfl h)
      (Bool.or_false _).symm rfl rfl rfl rfl rfl rfl⟩
  · rcases books_call (s := s) hstarts hdrain with hbooks | ⟨w, audio, hshown, hcall, hfelled⟩
    · obtain ⟨told, hevents, hkills, -, hentry⟩ := hbooks
      rw [emitted_of_append hevents]
      exact ⟨hkills, hentry⟩
    · obtain ⟨told, hevents, hkills, -, hentry⟩ := hshown.books
      have hended : (call s c).1.events.toList =
          s.1.events.toList ++ (told ++ [.gameOver w.score]) := by
        rw [hcall, ← List.append_assoc, ← hevents]
        exact Array.toList_push
      rw [emitted_of_append hended, hfelled, hcall, List.filterMap_append, hkills]
      exact ⟨rfl, hentry.trans (w.entry_endGame audio)⟩

/-! ### The balance -/

/-- What was told and felled since the run began accounts for what the world has. -/
structure Balanced (w : World) (told : List GameEvent) (felled : List (Slot Enemy)) : Prop where
  /-- The score is the points of all kills that were told. -/
  score : w.score = points told
  /-- These kills are the enemies that hits have removed, in order. -/
  kills : told.filterMap kill? = felled.map (killOf w.catalog ·.item)
  /-- An extend for every multiple of the step, and the next one at the next multiple. -/
  earned : 0 < w.catalog.settings.extendEvery →
    told.countP earnsExtend = w.score / w.catalog.settings.extendEvery ∧
      w.nextExtend =
        w.catalog.settings.extendEvery * (w.score / w.catalog.settings.extendEvery + 1)
  unearned : w.catalog.settings.extendEvery = 0 → told.countP earnsExtend = 0
  /-- No powerup came with an extend that was not earned. -/
  pending : told.countP bringsExtend + w.extendPending.toNat ≤ told.countP earnsExtend
  /-- No extend was collected that no powerup brought. -/
  carried : told.countP grantsExtend + w.carriers ≤ told.countP bringsExtend
  lives : w.player.lives + told.countP costsLife =
    w.catalog.settings.player.lives + told.countP grantsExtend

namespace Balanced

variable {w w' : World} {told told' : List GameEvent} {felled felled' : List (Slot Enemy)}

/-- The threshold is the next multiple of the step above the score. -/
theorem earned_of_entry {every score next n score' next' n' : Nat} (hpos : 0 < every)
    (hearned : n = score / every) (hnext : next = every * (score / every + 1))
    (hnext' : next' = next + every * n') (hahead : score < next → score' < next')
    (hnear : next ≤ score + every → next' ≤ score' + every) :
    n + n' = score' / every ∧ next' = every * (score' / every + 1) := by
  have hmul : every * (score / every + 1) = every * (score / every) + every := Nat.mul_succ _ _
  have hsum : next' = every * (n + n') + every := by
    rw [hnext', hnext, hmul, hearned, Nat.mul_add]
    omega
  have hbelow := hahead (hnext ▸ Nat.lt_mul_div_succ score hpos)
  have habove := hnear (by
    rw [hnext, hmul]
    exact Nat.add_le_add_right (Nat.mul_div_le score every) every)
  have hquotient : score' / every = n + n' := by
    refine Nat.div_eq_of_lt_le ?_ ?_
    · rw [Nat.mul_comm]
      omega
    · rw [Nat.mul_comm, Nat.mul_succ]
      omega
  rw [hquotient, Nat.mul_succ]
  exact ⟨rfl, hsum⟩

/-- The balance after one more entry. -/
theorem append (h : Balanced w told felled) (hentry : Entry w w' told')
    (hkills : told'.filterMap kill? = felled'.map (killOf w.catalog ·.item)) :
    Balanced w' (told ++ told') (felled ++ felled') := by
  have hscore := h.score
  have hscore' := hentry.score
  have hpending := h.pending
  have hpending' := hentry.pending
  have hcarried := h.carried
  have hcarried' := hentry.carried
  have hlives := h.lives
  have hlives' := hentry.lives
  refine ⟨?_, ?_, ?_, ?_, ?_, ?_, ?_⟩
  · rw [points_append]
    omega
  · rw [List.filterMap_append, List.map_append, h.kills, hkills, hentry.catalog]
  · rw [hentry.catalog]
    intro hpos
    obtain ⟨hearned, hnext⟩ := h.earned hpos
    rw [List.countP_append]
    exact earned_of_entry hpos hearned hnext hentry.nextExtend (hentry.ahead hpos) hentry.near
  · rw [hentry.catalog, List.countP_append]
    intro hzero
    rw [h.unearned hzero, hentry.unearned hzero]
  · rw [List.countP_append, List.countP_append]
    omega
  · rw [List.countP_append, List.countP_append]
    omega
  · rw [hentry.catalog, List.countP_append, List.countP_append]
    omega

/-- At the beginning there is nothing to account for. -/
theorem afresh (w : World) (timeline : Timeline Float) : Balanced (w.afresh timeline) [] [] := by
  have hcarriers : (w.afresh timeline).carriers = 0 := rfl
  refine ⟨rfl, rfl, fun _ => ⟨(Nat.zero_div _).symm, ?_⟩, fun _ => rfl, Nat.le_refl _, ?_, rfl⟩
  · have hscore : (w.afresh timeline).score = 0 := rfl
    rw [hscore, Nat.zero_div, Nat.zero_add, Nat.mul_one]
    rfl
  · rw [hcarriers]
    exact Nat.le_refl _

/-- A call that begins a run. -/
theorem start (h : c.starts = true) : Balanced (call s c).1 (emitted s c) (felledBy s c) := by
  obtain ⟨w, timeline, hqueued, hbooks, hfelled⟩ := books_start (s := s) h
  obtain ⟨told, hevents, hkills, -, hentry⟩ := hbooks
  rw [emitted_of_append (hqueued ▸ hevents), hfelled]
  exact (afresh w timeline).append hentry hkills

/-- **One call.** -/
theorem call (h : Balanced s.1 told felled) (c : Call) :
    Balanced (World.call s c).1 (if c.starts then emitted s c else told ++ emitted s c)
      (if c.starts then felledBy s c else felled ++ felledBy s c) := by
  by_cases hstarts : c.starts = true
  · rw [if_pos hstarts, if_pos hstarts]
    exact start hstarts
  · rw [if_neg hstarts, if_neg hstarts]
    obtain ⟨hkills, hentry⟩ := entry_call (s := s) (Bool.eq_false_iff.mpr hstarts)
    exact h.append hentry hkills

/-- **Some calls.** -/
theorem play (h : Balanced s.1 told felled) (calls : List Call) :
    Balanced (World.play s.1 s.2 calls).1 (sinceStart emitted s told calls)
      (sinceStart felledBy s felled calls) := by
  induction calls generalizing s told felled with
  | nil => exact h
  | cons c calls ih => exact ih (h.call c)

/-- More lives than in the beginning come from extends, and those from the score. -/
theorem lives_le (h : Balanced w told felled) :
    w.player.lives ≤
      w.catalog.settings.player.lives + w.score / w.catalog.settings.extendEvery := by
  have hpending := h.pending
  have hcarried := h.carried
  have hlives := h.lives
  rcases Nat.eq_zero_or_pos w.catalog.settings.extendEvery with hzero | hpos
  · have hunearned := h.unearned hzero
    refine Nat.le_trans ?_ (Nat.le_add_right _ _)
    omega
  · have hearned := (h.earned hpos).1
    omega

end Balanced

/-- **Score, extends and lives balance** in every run, whatever world it begins in and whatever
calls follow. The score is the points of the kills that were told, and these are the enemies that
hits have removed, one by one. Extends are earned at the multiples of a step, are brought by
powerups and are collected, each time at most as many as before. The lives are those of the
beginning and the collected ones, less those that were lost; so there are never more than the score
allows. -/
theorem score_extends_and_lives_balance (w : World) (audio : α) (now : Float)
    (calls : List Call) :
    Balanced (play w audio (.startGame now :: calls)).1
        (sinceStart emitted (w, audio) [] (.startGame now :: calls))
        (sinceStart felledBy (w, audio) [] (.startGame now :: calls)) ∧
      (play w audio (.startGame now :: calls)).1.player.lives ≤
        w.catalog.settings.player.lives +
          (play w audio (.startGame now :: calls)).1.score / w.catalog.settings.extendEvery ∧
      ∀ w : World, w.resolveHits.enemies.free = w.enemies.free ++ w.felled ∧
        (w.resolveHits.enemies.active.map (·.index) ++ w.felled.map (·.index)).Perm
          (w.enemies.active.map (·.index)) := by
  have hstart : Balanced (call (w, audio) (.startGame now)).1
      (emitted (w, audio) (.startGame now)) (felledBy (w, audio) (.startGame now)) :=
    .start rfl
  have hrun := hstart.play calls
  have hlives := hrun.lives_le
  have hcatalog := catalog_play w audio (.startGame now :: calls)
  refine ⟨hrun, ?_, resolveHits_felled⟩
  rw [← hcatalog]
  exact hlives

end World

end BulletHell
