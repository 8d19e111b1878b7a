import BulletHell.Proofs.World.Hits

/-!
# What a bomb removes

A bomb is used in the middle of a tick. Enemies and player have fired by then, and what they have
fired in this tick is removed like everything else in the two pools of shots that can hurt the
player. What follows is motion, pickups, and the resolution of hits, in which enemies that are
killed may fire back. Their shots come after the bomb and stay; but they are fresh, so the player
is safe from shots until the next tick.

## Why the revenge is told by volleys

After the tick the two pools are not empty in general. That no shot in them is older than the bomb
cannot be read off a shot: one that was fired earlier in the same tick was born on the same tick. So
the shots are told by the launches that they come from, and these by the enemies that have fallen in
the tick, one volley for each.

## Main definitions

* `World.fired` — the moment of a tick at which a bomb is used
* `Orb.stock` — orbs and bombs
* `World.Bombed` — a tick with a bomb

## Main results

* `World.exists_avenged_firstPass` — the first pass, with the enemies that answer in it
* `World.bombed_of_played` — a tick with a bomb
* `World.call_withoutBomb` — a tick in which there is none left
* `World.bomb_removes_shots_in_flight`
-/

namespace BulletHell

open GameEvent

/-- The bombs after an orb was collected. -/
def Orb.stock (limit bombs : Nat) : Orb → Nat
  | .bomb => min (bombs + 1) limit
  | _ => bombs

namespace World

theorem bombs_foldl_grant (settings : PlayerSettings) (orbs : List Orb) (p : Player) :
    (orbs.foldl (fun p orb => p.grant orb settings) p).bombs =
      orbs.foldl (Orb.stock settings.bombLimit) p.bombs := by
  induction orbs generalizing p with
  | nil => rfl
  | cons orb orbs ih =>
    have hgrant : (p.grant orb settings).bombs = orb.stock settings.bombLimit p.bombs := by
      cases orb <;> rfl
    rw [List.foldl_cons, ih, hgrant, List.foldl_cons]

/-- The first pass, with a volley for each of the enemies that fall in it. -/
theorem exists_avenged_firstPass (w : World) :
    ∃ volleys,
      List.Forall₂ (fun slot volley => w.skirmish.Avenges slot.item volley) w.felled volleys ∧
        w.FirstPass volleys.flatten := by
  obtain ⟨⟨volleys, hanswers, hexchange⟩, -⟩ :=
    w.skirmish.avenged_sweepSlots ⟨w.fireControl w.livingPlayer 0, [], []⟩ rfl w.enemies.active
  rw [felled_eq]
  exact ⟨volleys, hanswers, firstPass_of_exchange hexchange⟩

theorem bombs_resolvePlayer (w : World) : w.resolvePlayer.player.bombs = w.player.bombs := by
  rcases w.resolvePlayer_player with hspared | ⟨event, hstruck⟩
  · rw [hspared]
  · generalize w.resolvePlayer.player = p at hstruck
    cases hstruck <;> rfl

/-! ### The moment of the bomb -/

variable {α : Type} [AudioPlayer α Float]

/-- The moment of a tick that is played at which a bomb is used: enemies and player have acted. -/
def fired (p : PlayedTick α) : World :=
  let w := ({ p.world with tickCount := p.world.tickCount + 1 }.followTimeline p.now p.audio).1
  (w.tickEnemies p.now).movePlayer p.input p.dt

theorem poised_eq (p : PlayedTick α) :
    poised p =
      ((if p.input.bomb then (fired p).useBomb.2 else fired p).tickPowerups p.dt).tickShots
        p.dt :=
  rfl

/-- Nobody has touched the player's lives and bombs. -/
theorem samePurse_fired (p : PlayedTick α) : SamePurse p.world.player (fired p).player := by
  have hfollowed := samePurse_followTimeline { p.world with tickCount := p.world.tickCount + 1 }
    p.now p.audio
  have hmoved := samePurse_movePlayer
    (({ p.world with tickCount := p.world.tickCount + 1 }.followTimeline p.now
      p.audio).1.tickEnemies p.now) p.input p.dt
  exact ⟨hmoved.lives.trans hfollowed.lives, hmoved.bombs.trans hfollowed.bombs⟩

theorem catalog_fired (p : PlayedTick α) : (fired p).catalog = p.world.catalog :=
  (keeps_followTimeline { p.world with tickCount := p.world.tickCount + 1 } p.now p.audio).catalog

theorem speaks_fired (p : PlayedTick α) :
    Speaks [.music, .arrivals, .fire] p.world (fired p) := by
  have hfollowed := speaks_followTimeline { p.world with tickCount := p.world.tickCount + 1 } p.now
    p.audio
  exact ((hfollowed.mono (by decide)).trans ((speaks_tickEnemies _ p.now).mono (by decide))).trans
    ((speaks_movePlayer _ p.input p.dt).mono (by decide))

variable {s : World × α} {c : Call} {p : PlayedTick α}

/-- A bomb is used, if there is one. -/
theorem useBomb_fired (h : played s c = some p) :
    (fired p).useBomb.2 = if s.1.player.bombs ≠ 0 then (fired p).bombed else fired p := by
  have halive : (fired p).player.isAlive = true :=
    (samePurse_fired p).isAlive.trans (call_of_played h).2.2
  have hbombs : (fired p).player.bombs = s.1.player.bombs := by
    rw [(samePurse_fired p).bombs, (idles_of_played h).player]
  rw [useBomb_eq, halive, hbombs]
  simp only [true_and]

/-! ### A tick with a bomb -/

/-- A tick with a bomb. -/
structure Bombed (s : World × α) (c : Call) (p : PlayedTick α) (volleys : List (List Launch)) :
    Prop where
  /-- One bomb is spent, and others may be collected after that. -/
  bombs : (call s c).1.player.bombs = ((emitted s c).filterMap orb?).foldl
    (Orb.stock s.1.catalog.settings.player.bombLimit) (s.1.player.bombs - 1)
  /-- One bomb is told of: behind all that was fired, and in front of everything else. -/
  told : ∃ before after,
    emitted s c = before ++ .bombUsed (fired p).player.position :: after ∧
      (∀ event ∈ before, event.topic ∈ [Topic.control, .music, .arrivals, .fire]) ∧
      ∀ event ∈ after,
        event.topic ∈ [Topic.effects, .pickups, .fire, .kills, .rewards, .hits]
  /-- The volleys are the revenge of the enemies that fall in this tick. -/
  revenge : List.Forall₂ (fun slot volley => (poised p).skirmish.Avenges slot.item volley)
    (poised p).felled volleys
  launched : (poised p).FirstPass volleys.flatten
  /-- Of the shots that can hurt the player, nothing is left in the end but these. -/
  hostile : ∀ target, target ≠ .enemy →
    ((call s c).1.shots.pool target).items =
      Launch.shotsFor target (call s c).1.tickCount volleys.flatten
  /-- None of them reaches the player yet, and none is spent on a hit. -/
  safe : ∀ target, target ≠ .enemy → ∀ slot ∈ ((facing p).shots.pool target).active,
    (facing p).reaches slot.item = false
  unspent : (call s c).1.shots = (facing p).shots
  /-- The player's own shots go on as they would have without the bomb. -/
  own : (poised p).shots.player = ((fired p).shots.tick p.dt (fired p).tickCount).player

theorem poised_of_bomb (h : played s c = some p) (hbomb : p.input.bomb = true)
    (hbombs : s.1.player.bombs ≠ 0) :
    poised p = ((fired p).bombed.tickPowerups p.dt).tickShots p.dt := by
  rw [poised_eq, if_pos hbomb, useBomb_fired h, if_pos hbombs]

/-- When hits are resolved, there is nothing that could hurt the player. -/
theorem active_poised_of_bomb (h : played s c = some p) (hbomb : p.input.bomb = true)
    (hbombs : s.1.player.bombs ≠ 0) {target : ShotTarget} (htarget : target ≠ .enemy) :
    ((poised p).shots.pool target).active = [] := by
  have hempty : ∀ pool : Pool Shot,
      (pool.clear.retain fun shot => shot.tick p.dt (fired p).tickCount).active = [] := by
    intro pool
    rw [Pool.active_retain]
    rfl
  rw [poised_of_bomb h hbomb hbombs]
  cases target with
  | player => exact hempty (fired p).shots.enemy
  | enemy => exact absurd rfl htarget
  | both => exact hempty (fired p).shots.neutral

/-- What a bomb tells. -/
theorem exists_told_bombed (w : World) :
    ∃ shown, w.bombed.events.toList = w.events.toList ++ .bombUsed w.player.position :: shown ∧
      ∀ event ∈ shown, event.topic ∈ [Topic.effects] := by
  obtain ⟨shown, hshown, heffects⟩ := speaks_addEffect
    ({ w.wipeHostileShots with
        player := { w.player with bombs := w.player.bombs - 1 } }.announce
      (.bombUsed w.player.position)) .bomb w.player.position
  exact ⟨shown, hshown.trans (by simp [announce, wipeHostileShots]), heffects⟩

/-- What is collected after a bomb. -/
theorem exists_picked_of_bomb (h : played s c = some p) (hbomb : p.input.bomb = true)
    (hbombs : s.1.player.bombs ≠ 0) :
    ∃ picked, (poised p).events.toList = (fired p).bombed.events.toList ++ picked ∧
      (∀ event ∈ picked, event.topic ∈ [Topic.pickups, .effects]) ∧
      (poised p).player.bombs = (picked.filterMap orb?).foldl
        (Orb.stock s.1.catalog.settings.player.bombLimit) (s.1.player.bombs - 1) := by
  have hidle := idles_of_played h
  obtain ⟨picked, hgranted⟩ := (fired p).bombed.exists_granted_tickPowerups p.dt
  have hcatalog : (fired p).bombed.catalog = s.1.catalog :=
    (catalog_fired p).trans hidle.catalog
  have hspent : (fired p).bombed.player.bombs = s.1.player.bombs - 1 := by
    rw [← hidle.player, ← (samePurse_fired p).bombs]
    rfl
  have hstock : (poised p).player.bombs = (picked.filterMap orb?).foldl
      (Orb.stock (fired p).bombed.catalog.settings.player.bombLimit)
      (fired p).bombed.player.bombs := by
    rw [poised_of_bomb h hbomb hbombs, ← bombs_foldl_grant]
    exact congrArg Player.bombs hgranted.player
  rw [hcatalog, hspent] at hstock
  refine ⟨picked, ?_, hgranted.topics, hstock⟩
  rw [poised_of_bomb h hbomb hbombs]
  exact hgranted.events

/-- The events of a tick with a bomb, with the orbs that are collected in it. -/
theorem exists_told_of_bomb (h : played s c = some p) (hbomb : p.input.bomb = true)
    (hbombs : s.1.player.bombs ≠ 0) :
    ∃ before after,
      emitted s c = before ++ .bombUsed (fired p).player.position :: after ∧
        (∀ event ∈ before, event.topic ∈ [Topic.control, .music, .arrivals, .fire]) ∧
        (∀ event ∈ after,
          event.topic ∈ [Topic.effects, .pickups, .fire, .kills, .rewards, .hits]) ∧
        (call s c).1.player.bombs = (after.filterMap orb?).foldl
          (Orb.stock s.1.catalog.settings.player.bombLimit) (s.1.player.bombs - 1) := by
  have hcall := call_eq_resolvePlayer h
  obtain ⟨before, hbefore, hearly⟩ :
      Speaks [.control, .music, .arrivals, .fire] s.1 (fired p) :=
    ((idles_of_played h).speaks.mono (by decide)).trans ((speaks_fired p).mono (by decide))
  obtain ⟨shown, hbombed, heffects⟩ := (fired p).exists_told_bombed
  obtain ⟨picked, hmoved, hpickups, hstock⟩ := exists_picked_of_bomb h hbomb hbombs
  obtain ⟨late, hlate, hfought⟩ :
      Speaks [.fire, .effects, .kills, .rewards, .hits] (poised p) (facing p).resolvePlayer :=
    ((speaks_resolveEnemies (poised p)).mono (by decide)).trans
      ((speaks_resolvePlayer (facing p)).mono (by decide))
  generalize htopics : [Topic.effects, .pickups, .fire, .kills, .rewards, .hits] = topics
  have hwide : [Topic.effects] ⊆ topics := htopics ▸ by decide
  have hwide' : [Topic.pickups, .effects] ⊆ topics := htopics ▸ by decide
  have hwide'' : [Topic.fire, .effects, .kills, .rewards, .hits] ⊆ topics := htopics ▸ by decide
  refine ⟨before, shown ++ picked ++ late, ?_, hearly, fun event hevent => ?_, ?_⟩
  · refine emitted_of_append ?_
    rw [hcall, hlate, hmoved, hbombed, hbefore]
    simp
  · rcases List.mem_append.mp hevent with hmem | hmem
    · rcases List.mem_append.mp hmem with hmem | hmem
      · exact hwide (heffects event hmem)
      · exact hwide' (hpickups event hmem)
    · exact hwide'' (hfought event hmem)
  · have hnoorb : shown.filterMap orb? = [] := filterMap_orb?_eq_nil heffects (by decide)
    have hnoorb' : late.filterMap orb? = [] := filterMap_orb?_eq_nil hfought (by decide)
    rw [List.filterMap_append, List.filterMap_append, hnoorb, hnoorb', List.nil_append,
      List.append_nil, ← hstock, hcall, bombs_resolvePlayer]
    exact congrArg Player.bombs (facing_player p)

/-- Where no shot reaches the player, none is spent on a hit. -/
theorem shots_resolvePlayer_of_safe {w : World}
    (hsafe : ∀ target, target ≠ .enemy → ∀ slot ∈ (w.shots.pool target).active,
      w.reaches slot.item = false) : w.resolvePlayer.shots = w.shots := by
  rcases w.secondPass with hsame | ⟨target, slot, hspent⟩
  · exact hsame
  · obtain ⟨before, after, hactive, -⟩ := hspent.shots
    have hslot : slot ∈ (w.shots.pool target).active := by
      rw [hactive]
      exact List.mem_append_right _ List.mem_cons_self
    have hreach := hspent.reaches
    rw [hsafe target hspent.hostile slot hslot] at hreach
    cases hreach

/-- **A tick with a bomb.** -/
theorem bombed_of_played (h : played s c = some p) (hbomb : p.input.bomb = true)
    (hbombs : s.1.player.bombs ≠ 0) : ∃ volleys, Bombed s c p volleys := by
  have hcall := call_eq_resolvePlayer h
  have htick : (call s c).1.tickCount = (poised p).tickCount := by
    rw [hcall, (keeps_resolvePlayer _).tickCount]
    exact (keeps_settle _ _ _).tickCount
  obtain ⟨volleys, hrevenge, hfirst⟩ := (poised p).exists_avenged_firstPass
  obtain ⟨before, after, htold, hearly, hlate, hstock⟩ := exists_told_of_bomb h hbomb hbombs
  have hempty : ∀ target : ShotTarget, target ≠ .enemy →
      ((poised p).shots.pool target).active = [] :=
    fun target htarget => active_poised_of_bomb h hbomb hbombs htarget
  -- a shot that reaches the player was there before the first pass
  have hsafe : ∀ target : ShotTarget, target ≠ .enemy →
      ∀ slot ∈ ((facing p).shots.pool target).active, (facing p).reaches slot.item = false := by
    intro target htarget slot hslot
    by_contra hreach
    have hold := (hfirst.spared hslot (Bool.not_eq_false _ ▸ hreach)).1
    rw [hempty target htarget] at hold
    cases hold
  have hunspent : (call s c).1.shots = (facing p).shots := by
    rw [hcall]
    exact shots_resolvePlayer_of_safe hsafe
  refine ⟨volleys, ?_, ⟨before, after, htold, hearly, hlate⟩, hrevenge, hfirst, ?_, hsafe, hunspent,
    ?_⟩
  · have hnone : before.filterMap orb? = [] := filterMap_orb?_eq_nil hearly (by decide)
    have hbomb? : orb? (.bombUsed (fired p).player.position) = none := rfl
    rw [htold, List.filterMap_append, hnone, List.nil_append, List.filterMap_cons_none hbomb?]
    exact hstock
  · intro target htarget
    obtain ⟨new, hactive, hnew⟩ := hfirst.shots target
    rw [hempty target htarget, List.filter_nil, List.nil_append] at hactive
    rw [hunspent, htick, ← hnew, ← hactive]
    rfl
  · rw [poised_of_bomb h hbomb hbombs]
    rfl

/-! ### A tick without bombs -/

/-- The same call, without the bomb. -/
def Call.withoutBomb : Call → Call
  | .tick input now dt => .tick { input with bomb := false } now dt
  | c => c

/-- The same tick, without the bomb. -/
def PlayedTick.withoutBomb (p : PlayedTick α) : PlayedTick α :=
  { p with input := { p.input with bomb := false } }

theorem played_withoutBomb (h : played s c = some p) :
    played s c.withoutBomb = some p.withoutBomb := by
  cases c with
  | tick input now dt =>
    have hready : s.1.ready { input with bomb := false } now s.2 dt =
        s.1.ready input now s.2 dt := rfl
    simp only [Call.withoutBomb, played, hready] at h ⊢
    split at h
    · next hplayed =>
      obtain rfl := Option.some.inj h
      exact if_pos hplayed
    · cases h
  | _ => cases h

theorem poised_of_none (h : played s c = some p) (hbombs : s.1.player.bombs = 0) :
    poised p = ((fired p).tickPowerups p.dt).tickShots p.dt := by
  rw [poised_eq, useBomb_fired h, if_neg (not_not_intro hbombs), ite_self]

/-- **Without a bomb left, the button does nothing.** -/
theorem call_withoutBomb (h : played s c = some p) (hbombs : s.1.player.bombs = 0) :
    call s c.withoutBomb = call s c := by
  have hpoised : poised p.withoutBomb = poised p := by
    rw [poised_of_none h hbombs]
    rfl
  have hworld := simulate_eq_poised p.withoutBomb
  rw [hpoised, ← simulate_eq_poised p] at hworld
  rw [(call_of_played h).1, (call_of_played (played_withoutBomb h)).1]
  exact Prod.ext hworld rfl

/-- Nothing is told of bombs then. -/
theorem about_bombs_of_none (h : played s c = some p) (hbombs : s.1.player.bombs = 0) :
    about .bombs (emitted s c) = [] := by
  have hcall := call_eq_resolvePlayer h
  have hfired : Speaks
      [.control, .music, .arrivals, .fire, .effects, .pickups, .kills, .rewards, .hits] s.1
      (fired p) :=
    ((idles_of_played h).speaks.mono (by decide)).trans ((speaks_fired p).mono (by decide))
  have hmoved : Speaks [] ((fired p).tickPowerups p.dt) (poised p) :=
    .of_eq (by rw [poised_of_none h hbombs]; rfl)
  have hspoken : Speaks
      [.control, .music, .arrivals, .fire, .effects, .pickups, .kills, .rewards, .hits] s.1
      (call s c).1 := by
    rw [hcall]
    exact (((hfired.trans ((speaks_tickPowerups (fired p) p.dt).mono (by decide))).trans
      (hmoved.mono (by decide))).trans ((speaks_resolveEnemies (poised p)).mono (by decide))).trans
        ((speaks_resolvePlayer (facing p)).mono (by decide))
  exact about_eq_nil (emitted_of_speaks hspoken) (by decide)

/-- **A bomb removes all shots in flight** that can hurt the player. Take any tick that is played
with the bomb pressed. If there is a bomb, one is spent and told of, before anything is collected.
After the tick the shots that can hurt the player are those that fallen enemies have fired in its
last phase, and none of them has hit; what enemies and player had fired before is gone, but for the
player's own shots. If there is none, the tick is the one without the bomb, and tells of none. -/
theorem bomb_removes_shots_in_flight (h : played s c = some p) (hbomb : p.input.bomb = true) :
    (s.1.player.bombs ≠ 0 → ∃ volleys, Bombed s c p volleys) ∧
      (s.1.player.bombs = 0 →
        call s c.withoutBomb = call s c ∧ about .bombs (emitted s c) = []) :=
  ⟨bombed_of_played h hbomb, fun hnone => ⟨call_withoutBomb h hnone, about_bombs_of_none h hnone⟩⟩

/-- The first drone has fired, and then it hovers there. -/
def twoDronesFirst : World × HeadlessAudio Float :=
  play (new twoDronesCatalog) (.new 60) [.startGame 0, .tick {} 1 0.02]

/-- The same, after two bombs more, which were all that was left. -/
def twoDronesBare : World × HeadlessAudio Float :=
  play twoDronesFirst.1 twoDronesFirst.2
    [.tick { bomb := true } 1.02 0.02, .tick { bomb := true } 1.04 0.02]

/-- In the tick that the bomb is used in, both drones and the player fire. It leaves nothing but the
bolt of the player. Without bombs, what the drones have fired is left as well. -/
theorem bomb_removes_shots_in_flight_of_twoDrones :
    let bomb : Call := .tick { fire := true, bomb := true } 1.5 0.02
    (∃ p, played twoDronesFirst bomb = some p ∧ p.input.bomb = true ∧
      twoDronesFirst.1.player.bombs ≠ 0 ∧ ∃ volleys, Bombed twoDronesFirst bomb p volleys) ∧
      (∃ p, played twoDronesBare bomb = some p ∧ p.input.bomb = true ∧
        twoDronesBare.1.player.bombs = 0 ∧
        call twoDronesBare bomb.withoutBomb = call twoDronesBare bomb ∧
        about .bombs (emitted twoDronesBare bomb) = []) ∧
      twoDronesFirst.1.shots.enemy.items.length = 1 ∧
      [twoDronesFirst, twoDronesBare].map (fun s =>
          let s' := (call s bomb).1
          (s'.player.lives, s'.player.bombs, s'.shots.enemy.items.length,
            s'.shots.neutral.items.length, s'.shots.player.items.length)) =
        [(3, 1, 0, 0, 1), (3, 0, 1, 1, 1)] := by
  intro bomb
  have hplayed : (played twoDronesFirst bomb).isSome = true := by decide +kernel
  have hplayed' : (played twoDronesBare bomb).isSome = true := by decide +kernel
  obtain ⟨p, hp⟩ := Option.isSome_iff_exists.mp hplayed
  obtain ⟨p', hp'⟩ := Option.isSome_iff_exists.mp hplayed'
  have hbomb : p.input.bomb = true := by rw [(played_tick_eq_some hp).1]
  have hbomb' : p'.input.bomb = true := by rw [(played_tick_eq_some hp').1]
  have hstocked : twoDronesFirst.1.player.bombs ≠ 0 := by decide +kernel
  have hbare : twoDronesBare.1.player.bombs = 0 := by decide +kernel
  exact ⟨⟨p, hp, hbomb, hstocked, (bomb_removes_shots_in_flight hp hbomb).1 hstocked⟩,
    ⟨p', hp', hbomb', hbare, (bomb_removes_shots_in_flight hp' hbomb').2 hbare⟩,
    by decide +kernel, by decide +kernel⟩

end World

end BulletHell
