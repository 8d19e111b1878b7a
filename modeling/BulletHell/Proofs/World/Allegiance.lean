import BulletHell.Proofs.World.Accounts
import BulletHell.Proofs.World.Safety

/-!
# No friendly fire

Whom a shot can hurt is said by its archetype, in the catalog. The passes over the shots never look
there: the first pass takes the neutral shots and the player's, the second one takes the enemies'
and the neutral ones, and whatever they find in these pools may hit. So what protects each side from
its own shots is the pool that a shot is in. An emitter changes its shot while it runs, a slot is
used by shots of one kind after another, and killed enemies fire from the middle of a pass; all of
these shots come through one door, where the archetype is looked up and the pool is chosen.

## Main definitions

* `World.Sorted` — every shot in flight is in the pool of those whom it can hurt
* `World.TakesSides` — the resolution of hits, with the allegiance of the shots that are spent

## Main results

* `World.kept_sorted` — shots are sorted at all times, between two ticks
* `World.sorted_poised` — and when hits are resolved
* `World.takesSides_of_sorted` — so both sides are spared their own shots
* `World.no_friendly_fire`
-/

namespace BulletHell

/-- Whom shots of a kind can hurt. -/
def Catalog.targetOf? (c : Catalog) (id : ShotId) : Option ShotTarget :=
  (c.shot? id).map (·.target)

namespace World

variable {w w' : World}

/-- Every shot in flight is in the pool of those whom it can hurt. -/
def Sorted (w : World) : Prop :=
  ∀ target, ∀ slot ∈ (w.shots.pool target).active,
    w.catalog.targetOf? slot.item.archetype = some target

/-- What leaves the shots alone. -/
theorem Sorted.of_eq (h : w.Sorted) (hshots : w'.shots = w.shots)
    (hcatalog : w'.catalog = w.catalog) : w'.Sorted := by
  intro target slot hslot
  rw [hcatalog]
  exact h target slot (hshots ▸ hslot)

/-- Without shots there is nothing to sort. -/
theorem Sorted.of_empty (h : ∀ target, (w.shots.pool target).active = []) : w.Sorted := by
  intro target slot hslot
  rw [h target] at hslot
  cases hslot

/-! ### Shots in the middle of a tick -/

/-- **The shots of a tick are sorted** if those were that it began with: motion does not change the
kind of a shot, and a launched one is put where its archetype says. -/
theorem MidTick.sorted {tick : Nat} {queued : Array GameEvent}
    {aged : ShotTarget → List (Slot Shot)} {launches : List Launch}
    {flying : ShotTarget → List Launch} (h : MidTick tick queued aged launches flying w)
    (hflying : ∀ target, ∀ l ∈ flying target, l ∈ launches)
    (haged : ∀ target, ∀ slot ∈ aged target,
      w.catalog.targetOf? slot.item.archetype = some target) : w.Sorted := by
  intro target slot hslot
  obtain ⟨kept, new, hactive, hkept, hnew⟩ := h.shots target
  rw [hactive] at hslot
  rcases List.mem_append.mp hslot with hold | hfresh
  · exact haged target slot (hkept.subset hold)
  · have hmem : slot.item ∈ Launch.shotsFor target tick (flying target) :=
      hnew ▸ List.mem_map_of_mem hfresh
    obtain ⟨l, hl, hitem⟩ := List.mem_map.mp hmem
    obtain ⟨hl, htarget⟩ := List.mem_filter.mp hl
    have hkind : slot.item.archetype = l.request.shot := by
      rw [← hitem]
      rfl
    have hknown : w.catalog.shot? l.request.shot = some l.archetype :=
      h.known l (hflying target l hl)
    rw [hkind, Catalog.targetOf?, hknown, Option.map_some]
    exact congrArg some (of_decide_eq_true htarget)

/-- Shots that were sorted are so after one step of motion. -/
theorem Sorted.moved (h : w.Sorted) (dt : Float32) (target : ShotTarget) :
    ∀ slot ∈ ((w.shots.pool target).active).map (Slot.moved dt),
      w.catalog.targetOf? slot.item.archetype = some target := by
  intro slot hslot
  obtain ⟨before, hbefore, rfl⟩ := List.mem_map.mp hslot
  exact h target before hbefore

section Session

variable {α : Type} [AudioPlayer α Float]

theorem Sorted.simulate (h : w.Sorted) (haged : w.Aged) (halive : w.player.isAlive = true)
    (input : TickInput) (now : Float) (audio : α) (dt : Float32) :
    (w.simulate input now audio dt).1.Sorted := by
  obtain ⟨early, late, hplayed⟩ := exists_midTick_simulate haged halive input now audio dt
  have hcatalog : (w.simulate input now audio dt).1.catalog = w.catalog :=
    (w.keeps_simulate input now audio dt).catalog
  refine hplayed.sorted (fun _ _ hl => mem_of_mem_unbombed hl) fun target => ?_
  rw [hcatalog]
  exact h.moved dt target

/-- Shots are sorted at all times, and their age tells the ones of the last tick. -/
theorem kept_sorted : Kept fun w (_ : α) => w.Aged ∧ w.Sorted where
  tickEffects _ h := ⟨h.1.of_eq rfl rfl, h.2.of_eq rfl rfl⟩
  startGame now _ := ⟨.startGame _ now _, .of_empty (active_startGame _ now _)⟩
  pause {w audio} now h := by
    refine ⟨h.1.pause now audio, ?_⟩
    rcases w.pause_cases now audio with hnone | ⟨hplaying, hactive⟩
    · rw [hnone]
      exact h.2
    · rw [pause_eq hplaying hactive]
      exact h.2.of_eq rfl rfl
  resume {w audio} now h := by
    refine ⟨h.1.resume now audio, ?_⟩
    rcases w.resume_cases now audio with hnone | ⟨hpaused, since, hstate⟩
    · rw [hnone]
      exact h.2
    · rw [resume_eq hpaused hstate]
      exact h.2.of_eq rfl rfl
  endGame h := ⟨h.1.of_eq rfl rfl, h.2.of_eq rfl rfl⟩
  simulate input now dt _ halive h :=
    ⟨h.1.simulate halive input now _ dt, h.2.simulate h.1 halive input now _ dt⟩
  drainEvents h := ⟨h.1.of_eq rfl rfl, h.2.of_eq rfl rfl⟩

/-- **A whole session** from a new game. -/
theorem sorted_play (catalog : Catalog) (audio : α) (calls : List Call) :
    (play (new catalog) audio calls).1.Aged ∧ (play (new catalog) audio calls).1.Sorted := by
  have hempty : ∀ target, ((new catalog).shots.pool target).active = [] := by
    intro target
    cases target <;> rfl
  exact kept_sorted.play ⟨.of_empty hempty, .of_empty hempty⟩ calls

/-- **When hits are resolved** the shots are sorted as well: those that enemies and the player have
fired in the tick are there already. -/
theorem sorted_poised {p : PlayedTick α} (haged : p.world.Aged) (h : p.world.Sorted)
    (halive : p.world.player.isAlive = true) :
    (poised p).Sorted ∧ (poised p).catalog = p.world.catalog := by
  have hkeeps := keeps_followTimeline { p.world with tickCount := p.world.tickCount + 1 } p.now
    p.audio
  have hpurse := samePurse_followTimeline { p.world with tickCount := p.world.tickCount + 1 } p.now
    p.audio
  have hfollowed := (MidTick.start { p.world with tickCount := p.world.tickCount + 1 }).of_quiet
    (quiet_followTimeline _ p.now p.audio) hkeeps.catalog hkeeps.tickCount
  obtain ⟨early, hflown⟩ := hfollowed.fly (hpurse.isAlive.trans halive)
    (fun target slot hslot => Nat.ne_of_lt (Nat.lt_succ_of_le (haged target slot hslot))) p.input
    p.now p.dt
  obtain ⟨told, -, -, -, hentry⟩ := books_poised p
  refine ⟨hflown.sorted (fun _ _ hl => ?_) fun target => ?_, hentry.catalog⟩
  · exact List.append_nil early ▸ mem_of_mem_unbombed hl
  · show ∀ slot ∈ ((p.world.shots.pool target).active).map (Slot.moved p.dt),
      (poised p).catalog.targetOf? slot.item.archetype = some target
    rw [hentry.catalog]
    exact h.moved p.dt target

/-- The world in which a call plays its tick. -/
theorem kept_played {P : World → α → Prop} (hP : Kept P) {s : World × α} {c : Call}
    {p : PlayedTick α} (hplayed : played s c = some p) (h : P s.1 s.2) : P p.world p.audio := by
  cases c with
  | tick input now dt =>
    obtain ⟨rfl, -⟩ := played_tick_eq_some hplayed
    have haged : P (s.1.age dt) s.2 := hP.age s.2 h dt
    show P (s.1.ready input now s.2 dt).1 (s.1.ready input now s.2 dt).2
    rw [ready]
    split
    · exact hP.togglePause haged now
    · exact haged
  | _ => cases hplayed

end Session

/-! ### Hits -/

/-- **The second pass** does nothing, or delivers one hit: by a shot, which is spent on it, or by an
enemy's body, which leaves all shots where they are. -/
theorem resolvePlayer_hit (w : World) :
    w.resolvePlayer = w ∨ (∃ target slot, w.SpentOnPlayer w.resolvePlayer target slot) ∨
      w.bodyContact = true ∧ w.resolvePlayer = w.hurtPlayer := by
  by_cases hopen : (!w.player.isAlive || w.player.isInvulnerable) = true
  · left
    rw [resolvePlayer, if_pos hopen]
  · have hresolve : w.resolvePlayer =
        if w.findHit.1 then w.findHit.2.hurtPlayer else w.findHit.2 := by
      rw [resolvePlayer, if_neg hopen]
    rw [Bool.or_eq_true, not_or, Bool.not_eq_true', Bool.not_eq_false, Bool.not_eq_true] at hopen
    obtain ⟨halive, hbare⟩ := hopen
    rw [hresolve, findHit_eq]
    by_cases henemy : w.shots.enemy.active.any (w.reaches ·.item) = true
    · rw [if_pos henemy]
      exact .inr (.inl ⟨.player, spentOnPlayer_of_any .player (by decide) halive hbare henemy⟩)
    · rw [if_neg henemy]
      by_cases hneutral : w.shots.neutral.active.any (w.reaches ·.item) = true
      · rw [if_pos hneutral]
        exact .inr (.inl ⟨.both, spentOnPlayer_of_any .both (by decide) halive hbare hneutral⟩)
      · rw [if_neg hneutral]
        by_cases hbody : w.bodyContact = true
        · rw [hbody]
          exact .inr (.inr ⟨rfl, rfl⟩)
        · rw [Bool.not_eq_true] at hbody
          rw [hbody]
          exact .inl rfl

/-- The resolution of hits, with the allegiance of the shots. -/
structure TakesSides (w : World) : Prop where
  /-- In the first pass, enemies suffer from their shares of the neutral shots and the player's, and
  these are what is recorded. -/
  firstPass : ∃ launches, w.FirstPass launches
  /-- A shot that hurts only the player is in no share: no enemy takes damage from it, and none
  absorbs it. -/
  shares : ∀ i, ∀ shot ∈ w.skirmish.share w.enemies.items w.shots.neutral.items i ++
      w.skirmish.share w.enemies.items w.shots.player.items i,
    w.catalog.targetOf? shot.archetype ≠ some .player
  /-- It passes the enemies. -/
  passesEnemies : ∀ target, ∀ slot ∈ (w.shots.pool target).active,
    w.catalog.targetOf? slot.item.archetype = some .player →
      slot ∈ (w.resolveEnemies.shots.pool target).active
  /-- In the second pass the player is hit by an enemy's body, or by a shot that is spent on the hit
  and does not hurt only enemies. -/
  secondPass : w.resolveHits = w.resolveEnemies ∨
    (∃ target slot, w.resolveEnemies.SpentOnPlayer w.resolveHits target slot ∧
      w.catalog.targetOf? slot.item.archetype ≠ some .enemy) ∨
    w.resolveEnemies.bodyContact = true ∧ w.resolveHits = w.resolveEnemies.hurtPlayer
  /-- A shot that hurts only enemies passes the player. -/
  passesPlayer : ∀ target, ∀ slot ∈ (w.resolveEnemies.shots.pool target).active,
    w.catalog.targetOf? slot.item.archetype = some .enemy →
      slot ∈ (w.resolveHits.shots.pool target).active

/-- Shots of revenge are sorted like any other. -/
theorem Sorted.resolveEnemies (h : w.Sorted) {launches : List Launch}
    (hfirst : w.FirstPass launches) : w.resolveEnemies.Sorted := by
  have hpass := (MidTick.start w).resolveEnemies hfirst
  refine hpass.sorted (fun target l hl => ?_) fun target slot hslot => ?_
  · rw [List.nil_append] at hl ⊢
    exact hl
  · have hcatalog : w.resolveEnemies.catalog = w.catalog := (w.keeps_settle _ _).catalog
    rw [hcatalog]
    exact h target slot hslot

/-- Of the pools that meet the player, none has a shot that hurts only enemies. -/
theorem Sorted.hostile (h : w.Sorted) {target : ShotTarget} {slot : Slot Shot}
    (hslot : slot ∈ (w.shots.pool target).active) (htarget : target ≠ .enemy) :
    w.catalog.targetOf? slot.item.archetype ≠ some .enemy := by
  rw [h target slot hslot]
  exact fun heq => htarget (Option.some.inj heq)

/-- **Where the shots are sorted, both sides are spared their own.** -/
theorem takesSides_of_sorted (h : w.Sorted) : w.TakesSides := by
  obtain ⟨launches, hfirst⟩ := w.exists_firstPass
  have hafter := h.resolveEnemies hfirst
  have hcatalog : w.resolveEnemies.catalog = w.catalog := (w.keeps_settle _ _).catalog
  have hpass := w.resolveEnemies.resolvePlayer_hit
  refine ⟨⟨launches, hfirst⟩, ?_, ?_, ?_, ?_⟩
  · intro i shot hshot
    rw [List.mem_append] at hshot
    rcases hshot with hneutral | hplayer
    · obtain ⟨slot, hslot, rfl⟩ := List.mem_map.mp (List.mem_filter.mp hneutral).1
      rw [h .both slot hslot]
      decide
    · obtain ⟨slot, hslot, rfl⟩ := List.mem_map.mp (List.mem_filter.mp hplayer).1
      rw [h .enemy slot hslot]
      decide
  · intro target slot hslot hplayer
    obtain rfl : target = .player := Option.some.inj ((h target slot hslot).symm.trans hplayer)
    obtain ⟨new, hactive, -⟩ := hfirst.shots .player
    rw [hactive]
    refine List.mem_append_left new (List.mem_filter.mpr ⟨hslot, ?_⟩)
    simp [Skirmish.spends]
  · rcases hpass with hnone | ⟨target, slot, hspent⟩ | hbody
    · exact .inl hnone
    · obtain ⟨before, after, hactive, -⟩ := hspent.shots
      have hslot : slot ∈ (w.resolveEnemies.shots.pool target).active := by
        rw [hactive]
        exact List.mem_append_right before List.mem_cons_self
      exact .inr (.inl ⟨target, slot, hspent, hcatalog ▸ hafter.hostile hslot hspent.hostile⟩)
    · exact .inr (.inr hbody)
  · intro target slot hslot henemy
    rw [← hcatalog] at henemy
    obtain rfl : target = .enemy := Option.some.inj ((hafter target slot hslot).symm.trans henemy)
    rcases w.resolveEnemies.secondPass with hsame | ⟨struck, spent, hspent⟩
    · show slot ∈ (w.resolveEnemies.resolvePlayer.shots.pool .enemy).active
      rw [hsame]
      exact hslot
    · show slot ∈ (w.resolveEnemies.resolvePlayer.shots.pool .enemy).active
      rw [hspent.others .enemy (Ne.symm hspent.hostile)]
      exact hslot

/-! ### Sessions -/

variable {α : Type} [AudioPlayer α Float]

/-- **No friendly fire.** Take any catalog and any calls of a session. Every shot in flight is in
the pool of those whom it can hurt, whoever has fired it and whatever shots the emitter has changed
to: the enemies' pool has the shots that hurt only the player, the player's pool has those that hurt
only enemies, and the neutral pool has the others.

This holds as well in the middle of every tick that is played, when hits are resolved. So a shot
that hurts only the player passes the enemies: none of them takes damage from it or absorbs it, and
none makes it leave its pool. And a shot that hurts only enemies passes the player. -/
theorem no_friendly_fire (catalog : Catalog) (audio : α) (calls : List Call) :
    let s := play (new catalog) audio calls
    s.1.catalog = catalog ∧ s.1.Sorted ∧
      ∀ {c : Call} {p : PlayedTick α}, played s c = some p →
        (call s c).1 = (poised p).resolveHits ∧ (poised p).catalog = catalog ∧
          (poised p).Sorted ∧ (poised p).TakesSides := by
  intro s
  have hkept : s.1.Aged ∧ s.1.Sorted := sorted_play catalog audio calls
  have hcatalog : s.1.catalog = catalog := catalog_play (new catalog) audio calls
  refine ⟨hcatalog, hkept.2, fun {c p} hplayed => ?_⟩
  obtain ⟨hcall, -, halive⟩ := call_of_played hplayed
  obtain ⟨haged, hsorted⟩ := kept_played kept_sorted hplayed hkept
  have hsame : p.world.catalog = catalog := kept_played (kept_catalog catalog) hplayed hcatalog
  obtain ⟨hpoised, hloaded⟩ := sorted_poised haged hsorted halive
  refine ⟨?_, hloaded.trans hsame, hpoised, takesSides_of_sorted hpoised⟩
  rw [hcall]
  exact simulate_eq_poised p

/-- The drone leaps to its place, and once more on the beat on which it comes. -/
def leapingDrone : GameConfig :=
  { oneDrone with
    stages := [⟨"stage", "track", 120, "", 0,
      [⟨"leaps", [{ target := ⟨0, 3⟩, beats := 0 }, { target := ⟨0, 2⟩, beats := 0 }]⟩],
      [{ beat := 0, lane := 0, prefab := "drone", route := "leaps" }]⟩] }

/-- The same game, loaded. -/
def leapingDroneCatalog : Catalog :=
  { oneDroneCatalog with
    stages := [⟨"stage", "track", 120, "", 0,
      [⟨0, 0, .enemy ⟨0⟩, .none, false,
        some ⟨[{ target := ⟨0, 3⟩, beats := 0 }, { target := ⟨0, 2⟩, beats := 0 }], 0⟩, false⟩]⟩] }

/-- The first beat has come. -/
def leapingDroneFirst : Option (PlayedTick (HeadlessAudio Float)) :=
  played (play (new leapingDroneCatalog) (.new 60) [.startGame 0])
    (.tick { fire := true } 1 0.02)

/-- The drone fires at the player, who fires back, and both shots are in flight when the hits of
that tick are resolved. -/
theorem no_friendly_fire_of_leapingDrone :
    Catalog.ofConfig leapingDrone = .ok leapingDroneCatalog ∧
      ∃ p, leapingDroneFirst = some p ∧
        (poised p).shots.enemy.items.map (·.archetype) = [⟨1⟩] ∧
        (poised p).shots.player.items.map (·.archetype) = [⟨0⟩] ∧
        (poised p).Sorted ∧ (poised p).TakesSides := by
  have hfired : leapingDroneFirst.map (fun p =>
      ((poised p).shots.enemy.items.map (·.archetype),
        (poised p).shots.player.items.map (·.archetype))) = some ([⟨1⟩], [⟨0⟩]) := by
    decide +kernel
  obtain ⟨p, hplayed, hshots⟩ := Option.map_eq_some_iff.mp hfired
  obtain ⟨henemy, hplayer⟩ := Prod.mk.inj hshots
  obtain ⟨-, -, htick⟩ :=
    no_friendly_fire leapingDroneCatalog (HeadlessAudio.new 60) [.startGame 0]
  obtain ⟨-, -, hsorted, hsides⟩ := htick hplayed
  exact ⟨rfl, p, hplayed, henemy, hplayer, hsorted, hsides⟩

end World

end BulletHell
