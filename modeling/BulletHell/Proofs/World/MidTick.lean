import BulletHell.Proofs.World.Resolution

/-!
# The shots in the middle of a tick

While a tick is played, each pool of shots has two parts. In front is what is left of the shots
that were active when the tick began, in order; behind are the shots that were launched since.
Every phase deals with the two parts in its own way: some launch, the bomb clears, motion changes
the part in front and passes over the other one, and hits take shots from the part in front only.

The launched shots are told by two lists. One has all launches of the tick, as they are announced;
the other has, for each pool, those that no bomb has removed.

## Main definitions

* `Shot.moved` — one step of motion
* `World.MidTick` — the two parts

## Main results

* `MidTick.of_quiet`, `MidTick.launch`, `MidTick.useBomb`, `MidTick.tickShots`,
  `MidTick.resolveEnemies`, `MidTick.resolvePlayer` — the phases
-/

namespace BulletHell

/-- The shot after one step of motion. -/
def Shot.moved (dt : Float32) (s : Shot) : Shot :=
  { s with position := s.position + s.velocity * dt }

/-- The same, in its slot. -/
def Slot.moved (dt : Float32) (slot : Slot Shot) : Slot Shot :=
  { slot with item := slot.item.moved dt }

theorem Shot.tick_of_fresh {s : Shot} {tick : Nat} (h : s.bornTick = tick) (dt : Float32) :
    s.tick dt tick = (true, s) := by
  rw [Shot.tick, isFresh, h, beq_self_eq_true, if_pos rfl]

theorem Shot.tick_of_not_fresh {s : Shot} {tick : Nat} (h : s.bornTick ≠ tick) (dt : Float32) :
    (s.tick dt tick).2 = s.moved dt := by
  rw [Shot.tick, isFresh, beq_false_of_ne h]
  rfl

/-- A pass in which every item changes for itself or is released keeps the others in order. -/
theorem Pool.active_retain {α : Type} (p : Pool α) (visit : α → Bool × α) :
    (p.retain visit).active =
      (p.active.filter fun slot => (visit slot.item).1).map fun slot =>
        { slot with item := (visit slot.item).2 } := by
  have hslots : ∀ slots : List (Slot α),
      (sweepSlots (fun (_ : Unit) item => ((visit item).1, (visit item).2, ())) slots ()).1 =
        (slots.filter fun slot => (visit slot.item).1).map fun slot =>
          { slot with item := (visit slot.item).2 } := by
    intro slots
    induction slots with
    | nil => rfl
    | cons slot slots ih => cases hkeep : (visit slot.item).1 <;> simp [sweepSlots, hkeep, ih]
  rw [← hslots]
  exact congrArg (·.1.active)
    (p.sweep_eq (fun (_ : Unit) item => ((visit item).1, (visit item).2, ())) ())

/-- What is not in the back of a list was removed from its front. -/
theorem removed_from_front {α : Type} {kept new before after : List α} {x : α}
    (h : kept ++ new = before ++ x :: after) (hx : x ∉ new) :
    ∃ kept', before ++ after = kept' ++ new ∧ kept'.Sublist kept := by
  rcases List.append_eq_append_iff.mp h with ⟨rest, -, hnew⟩ | ⟨rest, rfl, hrest⟩
  · exact absurd (hnew ▸ List.mem_append_right rest List.mem_cons_self) hx
  · cases rest with
    | nil =>
      rw [List.nil_append] at hrest
      exact absurd (hrest ▸ List.mem_cons_self) hx
    | cons first rest =>
      rw [List.cons_append, List.cons.injEq] at hrest
      obtain ⟨rfl, rfl⟩ := hrest
      exact ⟨before ++ rest, (List.append_assoc _ _ _).symm,
        (List.sublist_cons_self _ _).append_left before⟩

namespace World

/-- A tick that began with some shots and some events: the shots as they are now, in `aged`, and
the launches so far. `launches` are all of them, and `flying` are those that no bomb has
removed. -/
structure MidTick (tick : Nat) (queued : Array GameEvent) (aged : ShotTarget → List (Slot Shot))
    (launches : List Launch) (flying : ShotTarget → List Launch) (w : World) : Prop where
  tickCount : w.tickCount = tick
  known : ∀ l ∈ launches, w.catalog.shots[l.request.shot.index]? = some l.archetype
  events : Tells launches queued w.events
  shots : ∀ target, ∃ kept new, (w.shots.pool target).active = kept ++ new ∧
    kept.Sublist (aged target) ∧ new.map (·.item) = Launch.shotsFor target tick (flying target)

namespace MidTick

variable {tick : Nat} {queued : Array GameEvent} {aged : ShotTarget → List (Slot Shot)}
  {launches ls : List Launch} {flying : ShotTarget → List Launch} {w w' : World}

/-- In the beginning nothing was launched. -/
theorem start (w : World) :
    MidTick w.tickCount w.events (fun target => (w.shots.pool target).active) []
      (fun _ => []) w where
  tickCount := rfl
  known := by simp
  events := .refl w.events
  shots target := ⟨_, [], (List.append_nil _).symm, List.Sublist.refl _, rfl⟩

theorem of_flying (h : MidTick tick queued aged launches flying w)
    {flying' : ShotTarget → List Launch} (hflying : ∀ target, flying' target = flying target) :
    MidTick tick queued aged launches flying' w :=
  (funext hflying : flying' = flying) ▸ h

/-- A phase that has nothing to do with shots. -/
theorem of_quiet (h : MidTick tick queued aged launches flying w) (hquiet : Quiet w w')
    (hcatalog : w'.catalog = w.catalog) (htick : w'.tickCount = w.tickCount) :
    MidTick tick queued aged launches flying w' where
  tickCount := htick.trans h.tickCount
  known := hcatalog ▸ h.known
  events := h.events.hush hquiet.events
  shots := hquiet.shots ▸ h.shots

/-- A phase that launches. -/
theorem launch (h : MidTick tick queued aged launches flying w) {f f' : FireControl}
    (hlaunches : FireControl.Launches ls f f') (harchetypes : f.archetypes = w.catalog.shots)
    (htick : f.tick = w.tickCount) (hshots : f.shots = w.shots) (hevents : f.events = w.events)
    (hshots' : w'.shots = f'.shots) (hevents' : w'.events = f'.events) (hkeeps : Keeps w w') :
    MidTick tick queued aged (launches ++ ls) (fun target => flying target ++ ls) w' where
  tickCount := hkeeps.tickCount.trans h.tickCount
  known l hl := by
    rw [hkeeps.catalog]
    rcases List.mem_append.mp hl with hl | hl
    · exact h.known l hl
    · exact harchetypes ▸ hlaunches.known l hl
  events := by
    have htold : Tells ls w.events w'.events := by
      rw [hevents', ← hevents]
      exact .of_append hlaunches.events
    exact h.events.append htold
  shots target := by
    obtain ⟨kept, new, hactive, hkept, hnew⟩ := h.shots target
    obtain ⟨new', hactive', hnew'⟩ := hlaunches.active target
    refine ⟨kept, new ++ new', ?_, hkept, ?_⟩
    · rw [hshots', hactive', hshots, hactive, List.append_assoc]
    · rw [List.map_append, hnew, hnew', htick, h.tickCount, Launch.shotsFor_append]

/-- The enemies move and fire. -/
theorem tickEnemies (h : MidTick tick queued aged launches flying w) (now : Float) :
    ∃ ls, MidTick tick queued aged (launches ++ ls) (fun target => flying target ++ ls)
      (w.tickEnemies now) := by
  obtain ⟨ls, hlaunches⟩ := w.launches_tickEnemies now
  exact ⟨ls, h.launch hlaunches rfl rfl rfl rfl rfl rfl (w.keeps_tickEnemies now)⟩

/-- The player moves and works the fire gate. -/
theorem movePlayer (h : MidTick tick queued aged launches flying w) (input : TickInput)
    (dt : Float32) :
    ∃ ls, MidTick tick queued aged (launches ++ ls) (fun target => flying target ++ ls)
      (w.movePlayer input dt) := by
  obtain ⟨ls, hlaunches⟩ := (w.setOut input.movement dt).launches_workGate input.fire
  exact ⟨ls, h.launch hlaunches rfl rfl rfl rfl rfl rfl ⟨rfl, rfl, rfl, rfl⟩⟩

/-- A bomb takes all shots that can hurt the player, fresh ones included. -/
theorem useBomb (h : MidTick tick queued aged launches flying w)
    (halive : w.player.isAlive = true) :
    MidTick tick queued aged launches
      (fun target => if w.player.bombs ≠ 0 ∧ target ≠ .enemy then [] else flying target)
      w.useBomb.2 := by
  by_cases hbombs : w.player.bombs = 0
  · have hnone : w.useBomb.2 = w := by
      simp [World.useBomb, halive, Player.useBomb?, hbombs]
    simp only [hnone, hbombs, ne_eq, not_true_eq_false, false_and, if_false]
    exact h
  · have hwiped : MidTick tick queued aged launches
        (fun target => if w.player.bombs ≠ 0 ∧ target ≠ .enemy then [] else flying target)
        w.wipeHostileShots := by
      refine ⟨h.tickCount, h.known, h.events, fun target => ?_⟩
      cases target with
      | player =>
        rw [if_pos ⟨hbombs, by decide⟩]
        exact ⟨[], [], rfl, List.nil_sublist _, rfl⟩
      | enemy =>
        rw [if_neg fun hwiped => hwiped.2 rfl]
        exact h.shots .enemy
      | both =>
        rw [if_pos ⟨hbombs, by decide⟩]
        exact ⟨[], [], rfl, List.nil_sublist _, rfl⟩
    have hspent : w.useBomb.2 =
        ({ w.wipeHostileShots with
            player := { w.player with bombs := w.player.bombs - 1 } }.announce
          (.bombUsed w.player.position)).addEffect .bomb w.player.position := by
      simp [World.useBomb, halive, Player.useBomb?, hbombs, wipeHostileShots]
    rw [hspent]
    refine hwiped.of_quiet ?_ rfl rfl
    have hpaid : Quiet w.wipeHostileShots
        { w.wipeHostileShots with player := { w.player with bombs := w.player.bombs - 1 } } :=
      .of_eq rfl rfl
    exact hpaid.trans ((aside_announce _ rfl).trans (aside_addEffect _ _ _)).toQuiet

/-- Motion: the shots in front move or leave, and those behind wait. -/
theorem tickShots (h : MidTick tick queued aged launches flying w)
    (haged : ∀ target, ∀ slot ∈ aged target, slot.item.bornTick ≠ tick) (dt : Float32) :
    MidTick tick queued (fun target => (aged target).map (Slot.moved dt)) launches flying
      (w.tickShots dt) where
  tickCount := h.tickCount
  known := h.known
  events := h.events
  shots target := by
    obtain ⟨kept, new, hactive, hkept, hnew⟩ := h.shots target
    have hpool : ((w.tickShots dt).shots.pool target).active =
        ((w.shots.pool target).active.filter fun slot => (slot.item.tick dt tick).1).map
          fun slot => { slot with item := (slot.item.tick dt tick).2 } := by
      have hretain := (w.shots.pool target).active_retain fun shot : Shot => shot.tick dt tick
      rw [← hretain, ← h.tickCount]
      cases target <;> rfl
    have hfront : (kept.filter fun slot => (slot.item.tick dt tick).1).map
        (fun slot => { slot with item := (slot.item.tick dt tick).2 }) =
          (kept.filter fun slot => (slot.item.tick dt tick).1).map (Slot.moved dt) := by
      refine List.map_congr_left fun slot hslot => ?_
      have hold := haged target slot (hkept.subset (List.mem_filter.mp hslot).1)
      rw [Shot.tick_of_not_fresh hold]
      rfl
    -- a launched shot was born on this very tick, and one in front was not
    have hwait : ∀ slot ∈ new, slot.item.tick dt tick = (true, slot.item) := by
      intro slot hslot
      refine Shot.tick_of_fresh ?_ dt
      exact Launch.bornTick_of_mem_shotsFor (hnew ▸ List.mem_map_of_mem hslot)
    have hbehind : (new.filter fun slot => (slot.item.tick dt tick).1).map
        (fun slot => { slot with item := (slot.item.tick dt tick).2 }) = new := by
      rw [List.filter_eq_self.mpr fun slot hslot => by rw [hwait slot hslot]]
      refine (List.map_congr_left fun slot hslot => ?_).trans (List.map_id new)
      rw [hwait slot hslot]
      rfl
    refine ⟨(kept.filter fun slot => (slot.item.tick dt tick).1).map (Slot.moved dt), new, ?_, ?_,
      hnew⟩
    · rw [hpool, hactive, List.filter_append, List.map_append, hfront, hbehind]
    · exact (List.filter_sublist.trans hkept).map _

/-- The first pass: it takes shots from the front and launches behind. -/
theorem resolveEnemies (h : MidTick tick queued aged launches flying w)
    (hfirst : w.FirstPass ls) :
    MidTick tick queued aged (launches ++ ls) (fun target => flying target ++ ls)
      w.resolveEnemies where
  tickCount := (keeps_settle _ _ _).tickCount.trans h.tickCount
  known l hl := by
    have hcatalog : w.resolveEnemies.catalog = w.catalog := (w.keeps_settle _ _).catalog
    rw [hcatalog]
    rcases List.mem_append.mp hl with hl | hl
    · exact h.known l hl
    · exact hfirst.known l hl
  events := h.events.append hfirst.events
  shots target := by
    obtain ⟨kept, new, hactive, hkept, hnew⟩ := h.shots target
    obtain ⟨new', hactive', hnew'⟩ := hfirst.shots target
    have hspared : new.filter (!w.skirmish.spends w.enemies.items target ·.item) = new := by
      refine List.filter_eq_self.mpr fun slot hslot => ?_
      have hborn : slot.item.bornTick = tick :=
        Launch.bornTick_of_mem_shotsFor (hnew ▸ List.mem_map_of_mem hslot)
      rw [Skirmish.spends_of_fresh (hborn.trans h.tickCount.symm)]
      rfl
    refine ⟨kept.filter (!w.skirmish.spends w.enemies.items target ·.item), new ++ new', ?_,
      List.filter_sublist.trans hkept, ?_⟩
    · rw [hactive', hactive, List.filter_append, hspared, List.append_assoc]
    · rw [List.map_append, hnew, hnew', h.tickCount, Launch.shotsFor_append]

/-- The second pass: the shot that it may spend is one from the front. -/
theorem resolvePlayer (h : MidTick tick queued aged launches flying w) :
    MidTick tick queued aged launches flying w.resolvePlayer where
  tickCount := (keeps_resolvePlayer w).tickCount.trans h.tickCount
  known := (keeps_resolvePlayer w).catalog ▸ h.known
  events := h.events.hush w.tells_resolvePlayer
  shots target := by
    obtain ⟨kept, new, hactive, hkept, hnew⟩ := h.shots target
    rcases w.secondPass with hsame | ⟨struck, slot, hspent⟩
    · rw [hsame]
      exact ⟨kept, new, hactive, hkept, hnew⟩
    · by_cases hpool : target = struck
      · subst hpool
        obtain ⟨before, after, hbefore, hafter, -⟩ := hspent.shots
        have hold : slot ∉ new := by
          intro hslot
          have hborn : slot.item.bornTick = tick :=
            Launch.bornTick_of_mem_shotsFor (hnew ▸ List.mem_map_of_mem hslot)
          have hreach := hspent.reaches
          simp [reaches, Shot.isFresh, hborn, h.tickCount] at hreach
        obtain ⟨kept', hkept', hfewer⟩ := removed_from_front (hactive.symm.trans hbefore) hold
        exact ⟨kept', new, hafter.trans hkept', hfewer.trans hkept, hnew⟩
      · rw [hspent.others target hpool]
        exact ⟨kept, new, hactive, hkept, hnew⟩

end MidTick

end World

end BulletHell
