import BulletHell.Proofs.World.Freshness
import BulletHell.Proofs.World.Topics

/-!
# Hits are spaced

A hit makes the player invulnerable for a while, and the while is counted in ticks that are played.
The counter is set in the last phase of a tick and lowered in an earlier phase of the next one, so a
window of `n` ticks covers the `n - 1` ticks after the hit. The tick of the hit itself is covered by
the search, which stops at the first hit. Both together say that hits are at least `max 1 n` ticks
apart.

## Why the ticks are read off the counter

A run may be paused, and its ticks may come at any readings of the clock. The counter of ticks goes
up exactly with the ticks that are played, and begins again with every run. So the record of hits
has, for every event that tells of a hit, what the counter was.

## Main definitions

* `Player.Struck` — one hit: a shield, or a life
* `World.Faced` — the second pass, as the player meets it
* `World.Weathered` — a call, as the player meets it
* `World.hitTicks` — the ticks in which hits were told

## Main results

* `World.exists_faced_resolvePlayer` — the second pass
* `World.weathered_call` — one call
* `World.Spaced.call`, `World.Spaced.play` — the record of hits, by induction over the calls
* `World.hits_are_spaced`
-/

namespace BulletHell

open GameEvent

/-! ### One hit -/

/-- One hit, as it is told, and what it costs: the shield, if there is one, and otherwise a life
with one level of power. The player is invulnerable after it. -/
inductive Player.Struck (window : Nat) (p : Player) : GameEvent → Player → Prop where
  | shield (h : p.shielded = true) :
      Struck window p (.playerHit p.position true)
        { p with shielded := false, invulnerable := window }
  | life (h : p.shielded = false) (hlives : 1 < p.lives) :
      Struck window p (.playerHit p.position false)
        { p with lives := p.lives - 1, power := p.power - 1, invulnerable := window }
  | lastLife (h : p.shielded = false) (hlives : p.lives = 1) :
      Struck window p (.playerDied p.position)
        { p with
          lives := 0
          power := p.power - 1
          invulnerable := window
          gate := { p.gate with firing := false } }

namespace Player.Struck

variable {window : Nat} {p p' : Player} {event : GameEvent}

theorem topic (h : p.Struck window event p') : event.topic = .hits := by
  cases h <;> rfl

theorem invulnerable (h : p.Struck window event p') : p'.invulnerable = window := by
  cases h <;> rfl

end Player.Struck

namespace World

variable {w : World}

/-- A player who can be hurt is struck, and the audience is told. -/
theorem exists_struck_hurtPlayer (halive : w.player.isAlive = true)
    (hbare : w.player.isInvulnerable = false) :
    ∃ event kind,
      w.player.Struck w.catalog.settings.player.invulnerableFrames event w.hurtPlayer.player ∧
        w.hurtPlayer = ({ w with player := w.hurtPlayer.player }.announce event).addEffect kind
          w.player.position := by
  have hlives : 0 < w.player.lives := of_decide_eq_true halive
  have hopen : (!w.player.isAlive || w.player.isInvulnerable) = false := by
    rw [halive, hbare]
    rfl
  rw [hurtPlayer_player]
  simp only [hurtPlayer, Player.hit, hopen, Bool.false_eq_true, if_false]
  by_cases hshield : w.player.shielded = true
  · simp only [if_pos hshield]
    exact ⟨_, _, .shield hshield, rfl⟩
  · have hunshielded : w.player.shielded = false := Bool.eq_false_iff.mpr hshield
    by_cases hlast : w.player.lives - 1 = 0
    · have hone : w.player.lives = 1 := by omega
      simp only [if_neg hshield, hlast, if_true]
      exact ⟨_, _, .lastLife hunshielded hone, rfl⟩
    · have hmore : 1 < w.player.lives := by omega
      simp only [if_neg hshield, if_neg hlast]
      exact ⟨_, _, .life hunshielded hmore, rfl⟩

/-! ### The second pass -/

/-- The second pass as the player meets it, with the hits that it tells of. A player who is
invulnerable is spared, and so are all shots then. -/
inductive Faced (window : Nat) (w w' : World) : List GameEvent → Prop where
  | spared (hplayer : w'.player = w.player) (hshots : w'.shots = w.shots) : Faced window w w' []
  | struck {event : GameEvent} (hbare : w.player.isInvulnerable = false)
      (hstruck : w.player.Struck window event w'.player)
      (hshots : w'.shots = w.shots ∨ ∃ target slot, w.SpentOnPlayer w' target slot) :
      Faced window w w' [event]

/-- The second pass finds nothing and does nothing, or it finds a player who can be hurt. -/
theorem resolvePlayer_eq_or (w : World) :
    w.resolvePlayer = w ∨ w.player.isAlive = true ∧ w.player.isInvulnerable = false ∧
      ∃ shots, w.resolvePlayer = { w with shots := shots }.hurtPlayer := by
  by_cases hclosed : (!w.player.isAlive || w.player.isInvulnerable) = true
  · exact .inl (if_pos hclosed)
  · have hopen := hclosed
    rw [Bool.or_eq_true, not_or, Bool.not_eq_true', Bool.not_eq_false, Bool.not_eq_true] at hopen
    simp only [resolvePlayer, findHit_eq, hclosed, Bool.false_eq_true, if_false]
    split
    · exact .inr ⟨hopen.1, hopen.2, _, rfl⟩
    · split
      · exact .inr ⟨hopen.1, hopen.2, _, rfl⟩
      · split
        · exact .inr ⟨hopen.1, hopen.2, w.shots, rfl⟩
        · exact .inl rfl

theorem speaks_resolvePlayer (w : World) : Speaks [.hits, .effects] w w.resolvePlayer := by
  rcases w.resolvePlayer_eq_or with hnone | ⟨-, -, shots, hhurt⟩
  · rw [hnone]
    exact .refl _ w
  · rw [hhurt]
    exact speaks_hurtPlayer { w with shots := shots }

/-- **The second pass**, with all that it tells. -/
theorem exists_faced_resolvePlayer (w : World) :
    ∃ told, w.resolvePlayer.events.toList = w.events.toList ++ told ∧
      w.Faced w.catalog.settings.player.invulnerableFrames w.resolvePlayer (about .hits told) := by
  rcases w.resolvePlayer_eq_or with hnone | ⟨halive, hbare, shots, hhurt⟩
  · rw [hnone]
    exact ⟨[], (List.append_nil _).symm, .spared rfl rfl⟩
  · obtain ⟨event, kind, hstruck, htold⟩ :=
      exists_struck_hurtPlayer (w := { w with shots := shots }) halive hbare
    obtain ⟨shown, hevents, hshown⟩ :=
      speaks_addEffect ({ { w with shots := shots } with player :=
        { w with shots := shots }.hurtPlayer.player }.announce event) kind w.player.position
    have hhits : about .hits (event :: shown) = [event] := by
      have hnone : about .hits shown = [] := about_eq_nil hshown (by decide)
      rw [← List.singleton_append, about_append, hnone, List.append_nil]
      exact List.filter_eq_self.mpr fun e he =>
        decide_eq_true (List.mem_singleton.mp he ▸ hstruck.topic)
    refine ⟨event :: shown, ?_, ?_⟩
    · rw [hhurt, htold, hevents]
      simp [announce]
    · rw [hhits]
      refine .struck hbare ?_ w.secondPass
      rw [hhurt]
      exact hstruck

/-- The second pass leaves the player alone, or strikes once. -/
theorem resolvePlayer_player (w : World) :
    w.resolvePlayer.player = w.player ∨
      ∃ event, w.player.Struck w.catalog.settings.player.invulnerableFrames event
        w.resolvePlayer.player := by
  obtain ⟨told, -, hfaced⟩ := w.exists_faced_resolvePlayer
  generalize about .hits told = hits at hfaced
  cases hfaced with
  | spared hplayer hshots => exact .inl hplayer
  | struck hbare hstruck hshots => exact .inr ⟨_, hstruck⟩

/-! ### What leaves the counter alone -/

theorem invulnerable_foldl_grant (settings : PlayerSettings) (orbs : List Orb) (p : Player) :
    (orbs.foldl (fun p orb => p.grant orb settings) p).invulnerable = p.invulnerable :=
  List.foldlRecOn (motive := fun p' : Player => p'.invulnerable = p.invulnerable) orbs _ rfl
    fun p' h orb _ => by cases orb <;> exact h

theorem invulnerable_onTimelineEvent (w : World) (event : TimelineEvent Float) (now : Float) :
    (w.onTimelineEvent event now).player.invulnerable = w.player.invulnerable := by
  cases event with
  | stageStarted => rfl
  | beat info =>
    rw [onTimelineEvent_player]
    rfl

variable {α : Type} [AudioPlayer α Float]

theorem invulnerable_followTimeline (w : World) (now : Float) (audio : α) :
    (w.followTimeline now audio).1.player.invulnerable = w.player.invulnerable := by
  simp only [followTimeline]
  split
  · exact invulnerable_onTimelineEvent _ _ now
  · rfl

/-- The player's phase lowers the counter by one. -/
theorem invulnerable_tickPlayer (w : World) (input : TickInput) (dt : Float32) :
    (w.tickPlayer input dt).player.invulnerable = w.player.invulnerable - 1 := by
  have hload : ∀ specs, (w.player.load specs).invulnerable = w.player.invulnerable := by
    intro specs
    rw [Player.load]
    split <;> rfl
  have hmoved : (w.movePlayer input dt).player.invulnerable = w.player.invulnerable - 1 :=
    congrArg (· - 1) (hload _)
  rw [tickPlayer]
  split
  · rw [useBomb_eq]
    split <;> exact hmoved
  · exact hmoved

theorem invulnerable_tickPowerups (w : World) (dt : Float32) :
    (w.tickPowerups dt).player.invulnerable = w.player.invulnerable := by
  obtain ⟨told, hgranted⟩ := w.exists_granted_tickPowerups dt
  exact (congrArg Player.invulnerable hgranted.player).trans (invulnerable_foldl_grant _ _ _)

/-! ### A tick that is played -/

/-- The moment of a tick that is played at which the player is looked for: everything has moved,
and the enemies have met their shots. -/
def facing (p : PlayedTick α) : World :=
  (poised p).resolveEnemies

/-- The enemies leave the player alone. -/
theorem facing_player (p : PlayedTick α) : (facing p).player = (poised p).player :=
  (poised p).aside_resolveEnemies.player

theorem invulnerable_facing (p : PlayedTick α) :
    (facing p).player.invulnerable = p.world.player.invulnerable - 1 := by
  have hfollowed := invulnerable_followTimeline { p.world with tickCount := p.world.tickCount + 1 }
    p.now p.audio
  rw [facing_player, ← hfollowed]
  exact (invulnerable_tickPowerups _ p.dt).trans (invulnerable_tickPlayer _ p.input p.dt)

theorem keeps_facing (p : PlayedTick α) :
    (facing p).catalog = p.world.catalog ∧ (facing p).tickCount = p.world.tickCount + 1 := by
  have hkeeps := keeps_simulate p.world p.input p.now p.audio p.dt
  have hstruck := keeps_resolvePlayer (facing p)
  have hplayed : (p.world.simulate p.input p.now p.audio p.dt).1 = (facing p).resolvePlayer :=
    simulate_eq_poised p
  rw [hplayed] at hkeeps
  exact ⟨hstruck.catalog.symm.trans hkeeps.catalog, hstruck.tickCount.symm.trans hkeeps.tickCount⟩

/-- Until then nothing is told of hits. -/
theorem speaks_facing (p : PlayedTick α) :
    Speaks [.music, .arrivals, .fire, .bombs, .pickups, .effects, .kills, .rewards] p.world
      (facing p) := by
  have hfollowed := speaks_followTimeline { p.world with tickCount := p.world.tickCount + 1 } p.now
    p.audio
  have hplayed : ∀ w : World, Speaks [.fire, .bombs, .effects] w (w.tickPlayer p.input p.dt) := by
    intro w
    have hmoved : Speaks [.fire, .bombs, .effects] w (w.movePlayer p.input p.dt) :=
      (w.speaks_movePlayer p.input p.dt).mono (by decide)
    rw [tickPlayer]
    split
    · exact hmoved.trans ((speaks_useBomb _).mono (by decide))
    · exact hmoved
  have hpicked := fun w : World => w.speaks_tickPowerups p.dt
  have hfaced := (poised p).speaks_resolveEnemies
  exact ((((hfollowed.mono (by decide)).trans ((speaks_tickEnemies _ p.now).mono (by decide))).trans
    ((hplayed _).mono (by decide))).trans ((hpicked _).mono (by decide))).trans
      (Speaks.trans (.of_eq rfl) (hfaced.mono (by decide)))

/-! ### One call -/

variable {s : World × α} {c : Call}

theorem call_eq_resolvePlayer {p : PlayedTick α} (h : played s c = some p) :
    (call s c).1 = (facing p).resolvePlayer :=
  (congrArg Prod.fst (call_of_played h).1).trans (simulate_eq_poised p)

/-- A call, as the player meets it. A tick that is played counts as one, and has the second pass in
it. Any other call tells of no hits; unless it begins a run, the player, the shots and the count of
ticks are as before. -/
inductive Weathered (s : World × α) (c : Call) : Prop where
  | begun (h : c.starts = true) (hhits : about .hits (emitted s c) = [])
  | idle (h : played s c = none) (hhits : about .hits (emitted s c) = [])
      (hplayer : (call s c).1.player = s.1.player) (hshots : (call s c).1.shots = s.1.shots)
      (htick : (call s c).1.tickCount = s.1.tickCount)
  | ticked {p : PlayedTick α} (h : played s c = some p)
      (htick : (call s c).1.tickCount = s.1.tickCount + 1)
      (hfaced : (facing p).Faced s.1.catalog.settings.player.invulnerableFrames (call s c).1
        (about .hits (emitted s c)))

/-- A tick that is played. -/
theorem faced_of_played {p : PlayedTick α} (h : played s c = some p) :
    (facing p).Faced s.1.catalog.settings.player.invulnerableFrames (call s c).1
      (about .hits (emitted s c)) := by
  have hidle := idles_of_played h
  obtain ⟨control, hcontrol, hnohits⟩ := hidle.speaks
  obtain ⟨earlier, hearlier, hnone⟩ := speaks_facing p
  obtain ⟨told, htold, hfaced⟩ := (facing p).exists_faced_resolvePlayer
  have hcall := call_eq_resolvePlayer h
  have hevents :
      (call s c).1.events.toList = s.1.events.toList ++ (control ++ earlier ++ told) := by
    rw [hcall, htold, hearlier, hcontrol, List.append_assoc, List.append_assoc, List.append_assoc]
  have hcatalog : (facing p).catalog = s.1.catalog := (keeps_facing p).1.trans hidle.catalog
  rw [emitted_of_append hevents, about_append, about_append, about_eq_nil hnohits (by decide),
    about_eq_nil hnone (by decide), List.nil_append, List.nil_append, hcall, ← hcatalog]
  exact hfaced

theorem tickCount_of_played {p : PlayedTick α} (h : played s c = some p) :
    (call s c).1.tickCount = s.1.tickCount + 1 := by
  rw [call_eq_resolvePlayer h, (keeps_resolvePlayer _).tickCount, (keeps_facing p).2,
    (idles_of_played h).tickCount]

/-- **One call.** -/
theorem weathered_call (s : World × α) (c : Call) : Weathered s c := by
  by_cases hstarts : c.starts = true
  · exact .begun hstarts
      (about_eq_nil (emitted_of_speaks (speaks_call_of_starts hstarts)) (by decide))
  · cases hplayed : played s c with
    | some p => exact .ticked hplayed (tickCount_of_played hplayed) (faced_of_played hplayed)
    | none =>
      by_cases hdrain : c = .drainEvents
      · subst hdrain
        have hnone : emitted s .drainEvents = [] := List.drop_nil
        exact .idle hplayed (by rw [hnone]; rfl) rfl rfl rfl
      · have hidle := idles_call hplayed (Bool.eq_false_iff.mpr hstarts) hdrain
        exact .idle hplayed (about_eq_nil (emitted_of_speaks hidle.speaks) (by decide)) hidle.player
          hidle.shots hidle.tickCount

/-! ### The record of hits -/

/-- The tick in which a call was played, once for every hit that it told of. -/
def hitTicks (s : World × α) (c : Call) : List Nat :=
  (about .hits (emitted s c)).map fun _ => (call s c).1.tickCount

/-- The hits of a run so far are spaced, and the counter of the player covers what is left of the
window after each of them. -/
structure Spaced (window : Nat) (w : World) (record : List Nat) : Prop where
  pairwise : record.Pairwise fun earlier later => earlier + max 1 window ≤ later
  past : ∀ tick ∈ record, tick ≤ w.tickCount
  covered : ∀ tick ∈ record, tick + window ≤ w.tickCount + w.player.invulnerable

namespace Spaced

variable {window : Nat} {w w' : World} {record : List Nat}

/-- Without hits there is nothing to keep apart. -/
theorem nil (window : Nat) (w : World) : Spaced window w [] :=
  ⟨.nil, fun _ h => absurd h List.not_mem_nil, fun _ h => absurd h List.not_mem_nil⟩

/-- No tick was counted, and the counter of the player stands still. -/
theorem of_eq (h : Spaced window w record) (htick : w'.tickCount = w.tickCount)
    (hplayer : w'.player = w.player) : Spaced window w' record :=
  ⟨h.pairwise, htick ▸ h.past, htick ▸ hplayer ▸ h.covered⟩

/-- One more tick lowers the counter by one at most. -/
theorem tick (h : Spaced window w record) (htick : w'.tickCount = w.tickCount + 1)
    (hlowered : w'.player.invulnerable = w.player.invulnerable - 1) : Spaced window w' record := by
  refine ⟨h.pairwise, fun tick hmem => ?_, fun tick hmem => ?_⟩
  · have hpast := h.past tick hmem
    omega
  · have hcovered := h.covered tick hmem
    omega

/-- A hit in a tick that no window covers. -/
theorem hit (h : Spaced window w record) (htick : w'.tickCount = w.tickCount)
    (hlater : ∀ tick ∈ record, tick < w.tickCount) (hbare : w.player.invulnerable = 0)
    (hcovered' : w'.player.invulnerable = window) :
    Spaced window w' (record ++ [w'.tickCount]) := by
  have hend : ∀ tick ∈ record, tick + max 1 window ≤ w'.tickCount := by
    intro tick hmem
    have hcovered := h.covered tick hmem
    have hbefore := hlater tick hmem
    omega
  refine ⟨?_, fun tick hmem => ?_, fun tick hmem => ?_⟩
  · rw [List.pairwise_append]
    refine ⟨h.pairwise, List.pairwise_singleton _ _, fun tick hmem later hlast => ?_⟩
    rw [List.mem_singleton.mp hlast]
    exact hend tick hmem
  · rcases List.mem_append.mp hmem with hold | hlast
    · have hspaced := hend tick hold
      omega
    · exact Nat.le_of_eq (List.mem_singleton.mp hlast)
  · rcases List.mem_append.mp hmem with hold | hlast
    · have hspaced := hend tick hold
      omega
    · have hnow : tick = w'.tickCount := List.mem_singleton.mp hlast
      omega

/-- **One call.** -/
theorem call (h : Spaced window s.1 record)
    (hwindow : window = s.1.catalog.settings.player.invulnerableFrames) (c : Call) :
    Spaced window (World.call s c).1
      (if c.starts then hitTicks s c else record ++ hitTicks s c) := by
  rcases weathered_call s c with ⟨hstarts, hhits⟩ | ⟨hplayed, hhits, hplayer, -, htick⟩ |
    ⟨hplayed, htick, hfaced⟩
  · rw [if_pos hstarts, hitTicks, hhits]
    exact nil window _
  · rw [hitTicks, hhits, List.map_nil, List.append_nil]
    split
    · exact nil window _
    · exact h.of_eq htick hplayer
  · next p =>
    have hidle := idles_of_played hplayed
    have hstarts : c.starts = false := by
      cases c with
      | tick input now dt => exact (played_tick_eq_some hplayed).2.1
      | _ => cases hplayed
    have htick' : (facing p).tickCount = s.1.tickCount + 1 := by
      rw [(keeps_facing p).2, hidle.tickCount]
    have hlowered : (facing p).player.invulnerable = s.1.player.invulnerable - 1 := by
      rw [invulnerable_facing, hidle.player]
    have hfacing : Spaced window (facing p) record := h.tick htick' hlowered
    have hsame : (World.call s c).1.tickCount = (facing p).tickCount := htick.trans htick'.symm
    rw [hstarts, if_neg Bool.false_ne_true, hitTicks]
    generalize about .hits (emitted s c) = hits at hfaced ⊢
    cases hfaced with
    | spared hplayer hshots =>
      rw [List.map_nil, List.append_nil]
      exact hfacing.of_eq hsame hplayer
    | struck hbare hstruck hshots =>
      have hzero : (facing p).player.invulnerable = 0 :=
        Nat.eq_zero_of_not_pos (of_decide_eq_false hbare)
      refine hfacing.hit hsame (fun tick hmem => ?_) hzero ?_
      · have hpast := h.past tick hmem
        omega
      · rw [hstruck.invulnerable, hwindow]

/-- **Some calls.** -/
theorem play (h : Spaced window s.1 record)
    (hwindow : window = s.1.catalog.settings.player.invulnerableFrames) (calls : List Call) :
    Spaced window (World.play s.1 s.2 calls).1 (sinceStart hitTicks s record calls) := by
  induction calls generalizing s record with
  | nil => exact h
  | cons c calls ih =>
    have hcatalog : (World.call s c).1.catalog = s.1.catalog := catalog_play s.1 s.2 [c]
    exact ih (h.call hwindow c) (hcatalog ▸ hwindow)

end Spaced

/-- **Hits are spaced by the window of invulnerability.** Take any world and any calls. From the
last one on that begins a run, any two hits that the audience is told of are at least as many ticks
apart as the player is invulnerable after a hit, and at least one; ticks of a pause do not count. A
tick tells of one hit at most, by which the player loses a shield, or a life with one level of power
at most. As long as the player is invulnerable there is none, and no shot is spent. -/
theorem hits_are_spaced (s : World × α) (calls : List Call) :
    (sinceStart hitTicks s [] calls).Pairwise (fun earlier later =>
        earlier + max 1 s.1.catalog.settings.player.invulnerableFrames ≤ later) ∧
      ∀ (s : World × α) (c : Call), Weathered s c :=
  ⟨((Spaced.nil _ s.1).play rfl calls).pairwise, weathered_call⟩

/-- A drone that leaps onto the player as soon as it comes, and stays. A hit leaves the player two
ticks of invulnerability. -/
def ramming : Catalog :=
  { twoDronesCatalog with
    settings := { player := { invulnerableFrames := 2 } }
    enemies := [⟨"drone", 1, 0, [], [], [⟨Vec2.zero, 0.3⟩], .constant 0, .constant 0, []⟩]
    stages := [⟨"stage", "track", 120, "", 0,
      [⟨0, 0, .enemy ⟨0⟩, .none, false, some ⟨[{ target := ⟨0, -2.5⟩, beats := 0 }], 0⟩, false⟩]⟩] }

/-- The second hit comes as soon as it can: a paused tick does not count. -/
example : sinceStart hitTicks (new ramming, HeadlessAudio.new 60) []
    [.startGame 0, .tick {} 1 0.02, .pause 1, .tick {} 2 0.02, .resume 2, .tick {} 2 0.02,
      .tick {} 2.02 0.02] = [1, 3] := by
  decide +kernel

end World

end BulletHell
