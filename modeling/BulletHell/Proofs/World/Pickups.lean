import BulletHell.Proofs.World.Loadout

/-!
# What a pickup brings

An orb adds to what the player has, and power and bombs are cut to their limits with it. Power never
gets above its limit by other means, so that cutting it takes nothing away. With bombs it is another
matter. A run begins with as many of them as the settings say, and nobody compares that number with
the limit; a player who has more than the limit is left with just the limit by the next bomb that is
collected. That is the only case in which a pickup costs anything, and settings that start a run
within the limit do not have it.

## Why the limits are an invariant

Whether an orb costs power depends on the power right before it, which is the outcome of all the
pickups, hits, bombs and restarts so far. All that has to be known of them is that none of them gets
above the limits, or above the bombs that a run begins with.

## Counters that overflow

The game counts lives, power and bombs in 32 bits, and settings may let a counter get to its highest
value, where the next orb takes away all that was counted. Here the counters have no bound, which
makes no difference as long as no orb finds its counter full. This is assumed of a run as a whole
and not only of its last tick: after an overflow the game has another player than this one.

## Main definitions

* `stocked` — a stock that is cut to its limit whenever something is added to it
* `Player.grantWord` — an orb on counters of 32 bits
* `Player.HasRoom`, `Player.HasRoomFor` — orbs that do not find a counter full
* `World.PickupsFit` — calls in which no orb finds a counter full
* `Player.Enriched` — the player before and after some orbs were collected
* `Player.WithinLimits` — power and bombs are as high as they can get at most

## Main results

* `Player.foldl_grantWord_eq` — where there is room, the counters need no bound
* `Player.enriched_foldl_grant` — some orbs, by induction
* `World.pickups_of_played` — the pickups of a tick are the orbs that it tells of
* `World.withinLimits_call`, `World.withinLimits_play` — the limits, by induction over the calls
* `World.pickups_cost_only_bombs_above_the_limit`
-/

namespace BulletHell

open GameEvent

/-! ### A stock with a limit -/

/-- A stock to which something was added a number of times, and which was cut to its limit each
time. -/
def stocked (limit stock added : Nat) : Nat :=
  if added = 0 then stock else min (stock + added) limit

/-- Cutting a stock after each addition is cutting it once. -/
theorem stocked_stocked (limit stock added added' : Nat) :
    stocked limit (stocked limit stock added) added' = stocked limit stock (added + added') := by
  simp only [stocked]
  split_ifs <;> omega

theorem stocked_le_max (limit stock added : Nat) : stocked limit stock added ≤ max stock limit := by
  rw [stocked]
  split <;> omega

theorem le_stocked {limit stock : Nat} (h : stock ≤ limit) (added : Nat) :
    stock ≤ stocked limit stock added := by
  rw [stocked]
  split <;> omega

/-- Something is lost exactly if something is added to what is above the limit. -/
theorem stocked_lt_iff {limit stock added : Nat} :
    stocked limit stock added < stock ↔ 0 < added ∧ limit < stock := by
  rw [stocked]
  split <;> omega

namespace Player

variable {settings : PlayerSettings} {p p' p'' : Player} {orbs orbs' : List Orb}

/-! ### Counters of 32 bits -/

/-- Gives the player an orb. A counter that is at its highest value begins anew. -/
def grantWord (p : Player) (orb : Orb) (settings : PlayerSettings) : Player :=
  match orb with
  | .shield => { p with shielded := true }
  | .extend => { p with lives := (p.lives + 1) % 0x100000000 }
  | .power => { p with power := min ((p.power + 1) % 0x100000000) settings.powerLimit }
  | .bomb => { p with bombs := min ((p.bombs + 1) % 0x100000000) settings.bombLimit }

/-- The counter that an orb adds to is not at its highest value. -/
def HasRoom (p : Player) : Orb → Prop
  | .shield => True
  | .extend => p.lives + 1 < 0x100000000
  | .power => p.power + 1 < 0x100000000
  | .bomb => p.bombs + 1 < 0x100000000

/-- There is room for each of some orbs when the player gets it. -/
def HasRoomFor (settings : PlayerSettings) : Player → List Orb → Prop
  | _, [] => True
  | p, orb :: orbs => p.HasRoom orb ∧ HasRoomFor settings (p.grant orb settings) orbs

instance (p : Player) : (orb : Orb) → Decidable (p.HasRoom orb)
  | .shield => inferInstanceAs (Decidable True)
  | .extend | .power | .bomb => inferInstanceAs (Decidable (_ < _))

instance HasRoomFor.decidable (settings : PlayerSettings) :
    (p : Player) → (orbs : List Orb) → Decidable (HasRoomFor settings p orbs)
  | _, [] => inferInstanceAs (Decidable True)
  | p, orb :: orbs =>
    have := HasRoomFor.decidable settings (p.grant orb settings) orbs
    inferInstanceAs (Decidable (_ ∧ _))

theorem grantWord_eq {orb : Orb} (h : p.HasRoom orb) :
    p.grantWord orb settings = p.grant orb settings := by
  cases orb with
  | shield => rfl
  | extend => rw [grantWord, grant, Nat.mod_eq_of_lt h]
  | power => rw [grantWord, grant, Nat.mod_eq_of_lt h]
  | bomb => rw [grantWord, grant, Nat.mod_eq_of_lt h]

/-- **Where there is room**, orbs do the same to counters of 32 bits. -/
theorem foldl_grantWord_eq (h : HasRoomFor settings p orbs) :
    orbs.foldl (fun p orb => p.grantWord orb settings) p =
      orbs.foldl (fun p orb => p.grant orb settings) p := by
  induction orbs generalizing p with
  | nil => rfl
  | cons orb orbs ih =>
    obtain ⟨hroom, hlater⟩ := h
    rw [List.foldl_cons, List.foldl_cons, grantWord_eq hroom, ih hlater]

/-! ### Orbs -/

/-- The player before and after some orbs were collected. -/
structure Enriched (settings : PlayerSettings) (orbs : List Orb) (p p' : Player) : Prop where
  lives : p'.lives = p.lives + orbs.count .extend
  shielded : p'.shielded = true ↔ p.shielded = true ∨ .shield ∈ orbs
  power : p'.power = stocked settings.powerLimit p.power (orbs.count .power)
  bombs : p'.bombs = stocked settings.bombLimit p.bombs (orbs.count .bomb)

/-- As much power and as many bombs as a run can bring. -/
structure WithinLimits (settings : PlayerSettings) (p : Player) : Prop where
  power : p.power ≤ settings.powerLimit
  bombs : p.bombs ≤ max settings.bombs settings.bombLimit

namespace Enriched

theorem refl (settings : PlayerSettings) (p : Player) : Enriched settings [] p p :=
  ⟨rfl, by simp, rfl, rfl⟩

theorem trans (h : Enriched settings orbs p p') (h' : Enriched settings orbs' p' p'') :
    Enriched settings (orbs ++ orbs') p p'' where
  lives := by rw [h'.lives, h.lives, List.count_append, Nat.add_assoc]
  shielded := by rw [h'.shielded, h.shielded, List.mem_append, or_assoc]
  power := by rw [h'.power, h.power, stocked_stocked, List.count_append]
  bombs := by rw [h'.bombs, h.bombs, stocked_stocked, List.count_append]

theorem grant (settings : PlayerSettings) (orb : Orb) (p : Player) :
    Enriched settings [orb] p (p.grant orb settings) := by
  cases orb <;> exact ⟨rfl, by simp [Player.grant], rfl, rfl⟩

/-- Orbs do not get above the limits. -/
theorem withinLimits (h : Enriched settings orbs p p') (hp : p.WithinLimits settings) :
    p'.WithinLimits settings where
  power := by
    rw [h.power]
    exact (stocked_le_max _ _ _).trans (max_le hp.power (Nat.le_refl _))
  bombs := by
    rw [h.bombs]
    exact (stocked_le_max _ _ _).trans (max_le hp.bombs (Nat.le_max_right _ _))

end Enriched

/-- **Some orbs**, one after the other. -/
theorem enriched_foldl_grant (settings : PlayerSettings) (orbs : List Orb) (p : Player) :
    Enriched settings orbs p (orbs.foldl (fun p orb => p.grant orb settings) p) := by
  induction orbs generalizing p with
  | nil => exact .refl settings p
  | cons orb orbs ih => exact (Enriched.grant settings orb p).trans (ih _)

namespace WithinLimits

theorem reset (settings : PlayerSettings) (p : Player) :
    (p.reset settings).WithinLimits settings :=
  ⟨Nat.zero_le _, Nat.le_max_left _ _⟩

/-- What only costs power and bombs does not get above the limits. -/
theorem of_le (h : p.WithinLimits settings) (hpower : p'.power ≤ p.power)
    (hbombs : p'.bombs ≤ p.bombs) : p'.WithinLimits settings :=
  ⟨hpower.trans h.power, hbombs.trans h.bombs⟩

theorem struck (h : p.WithinLimits settings) {window : Nat} {event : GameEvent}
    (hstruck : p.Struck window event p') : p'.WithinLimits settings := by
  cases hstruck with
  | shield => exact ⟨h.power, h.bombs⟩
  | life => exact h.of_le (Nat.sub_le _ _) (Nat.le_refl _)
  | lastLife => exact h.of_le (Nat.sub_le _ _) (Nat.le_refl _)

end WithinLimits

end Player

/-! ### The pickups of a tick -/

namespace World

variable {α : Type} [AudioPlayer α Float] {s : World × α} {c : Call} {p : PlayedTick α}

theorem speaks_picking (p : PlayedTick α) :
    Speaks [.music, .arrivals, .fire, .bombs, .effects] p.world (picking p) := by
  have hfired : Speaks [.music, .arrivals, .fire, .bombs, .effects] p.world (fired p) :=
    (speaks_fired p).mono (by decide)
  rw [picking]
  split
  · exact hfired.trans ((speaks_useBomb _).mono (by decide))
  · exact hfired

theorem catalog_picking (h : played s c = some p) : (picking p).catalog = s.1.catalog := by
  have hfired : (fired p).catalog = s.1.catalog :=
    (catalog_fired p).trans (idles_of_played h).catalog
  rw [picking]
  split
  · rw [useBomb_eq]
    split <;> exact hfired
  · exact hfired

/-- Up to the pickups, a tick changes power not at all, and bombs by using one. -/
theorem spends_picking (h : played s c = some p) :
    (picking p).player.power = s.1.player.power ∧
      (picking p).player.bombs ≤ s.1.player.bombs := by
  have hidle := idles_of_played h
  have hpower : (fired p).player.power = s.1.player.power := by
    rw [(fired_player p).1, aiming_power, listening_eq, hidle.player]
  have hbombs : (fired p).player.bombs = s.1.player.bombs := by
    rw [← hidle.player, (samePurse_fired p).bombs]
  rw [picking, ← hpower, ← hbombs]
  split
  · rw [useBomb_eq]
    split
    · exact ⟨rfl, Nat.sub_le _ _⟩
    · exact ⟨rfl, Nat.le_refl _⟩
  · exact ⟨rfl, Nat.le_refl _⟩

/-- **The pickups of a tick** are the orbs that it tells of. -/
theorem pickups_of_played (h : played s c = some p) :
    ((picking p).tickPowerups p.dt).player =
      ((emitted s c).filterMap orb?).foldl (fun p orb => p.grant orb s.1.catalog.settings.player)
        (picking p).player := by
  obtain ⟨before, hbefore, hearly⟩ :
      Speaks [.control, .music, .arrivals, .fire, .bombs, .effects] s.1 (picking p) :=
    ((idles_of_played h).speaks.mono (by decide)).trans ((speaks_picking p).mono (by decide))
  obtain ⟨told, hgranted⟩ := (picking p).exists_granted_tickPowerups p.dt
  obtain ⟨after, hafter, hlate⟩ :
      Speaks [.fire, .effects, .kills, .rewards, .hits] (poised p) (facing p).resolvePlayer :=
    ((speaks_resolveEnemies (poised p)).mono (by decide)).trans
      ((speaks_resolvePlayer (facing p)).mono (by decide))
  have hpoised : (poised p).events.toList = (picking p).events.toList ++ told := hgranted.events
  have hemitted : emitted s c = before ++ told ++ after := by
    refine emitted_of_append ?_
    rw [call_eq_resolvePlayer h, hafter, hpoised, hbefore, List.append_assoc, List.append_assoc,
      List.append_assoc]
  have horbs : (emitted s c).filterMap orb? = told.filterMap orb? := by
    rw [hemitted, List.filterMap_append, List.filterMap_append,
      filterMap_orb?_eq_nil hearly (by decide), filterMap_orb?_eq_nil hlate (by decide),
      List.nil_append, List.append_nil]
  rw [horbs, ← catalog_picking h]
  exact hgranted.player

theorem enriched_of_played (h : played s c = some p) :
    Player.Enriched s.1.catalog.settings.player ((emitted s c).filterMap orb?) (picking p).player
      ((picking p).tickPowerups p.dt).player := by
  rw [pickups_of_played h]
  exact Player.enriched_foldl_grant _ _ _

/-! ### The limits -/

/-- The player of a world is within the limits of its catalog. -/
def WithinLimits (w : World) : Prop :=
  w.player.WithinLimits w.catalog.settings.player

theorem withinLimits_picking (hlimits : s.1.WithinLimits) (h : played s c = some p) :
    (picking p).player.WithinLimits s.1.catalog.settings.player := by
  obtain ⟨hpower, hbombs⟩ := spends_picking h
  exact Player.WithinLimits.of_le hlimits (Nat.le_of_eq hpower) hbombs

theorem withinLimits_tick (hlimits : s.1.WithinLimits) (h : played s c = some p) :
    (call s c).1.player.WithinLimits s.1.catalog.settings.player := by
  have hpicked : (poised p).player.WithinLimits s.1.catalog.settings.player :=
    (enriched_of_played h).withinLimits (withinLimits_picking hlimits h)
  rw [← facing_player] at hpicked
  rw [call_eq_resolvePlayer h]
  rcases (facing p).resolvePlayer_player with hspared | ⟨event, hstruck⟩
  · rwa [hspared]
  · exact hpicked.struck hstruck

/-- **One call.** -/
theorem withinLimits_call (h : s.1.WithinLimits) (c : Call) : (call s c).1.WithinLimits := by
  have hcatalog : (call s c).1.catalog = s.1.catalog := catalog_play s.1 s.2 [c]
  rw [WithinLimits, hcatalog]
  rcases weathered_call s c with ⟨hstarts, -⟩ | ⟨-, -, hplayer, -, -⟩ | ⟨hplayed, -, -⟩
  · rw [player_of_starts hstarts]
    exact .reset _ _
  · rw [hplayer]
    exact h
  · exact withinLimits_tick h hplayed

/-- **Some calls.** -/
theorem withinLimits_play (h : s.1.WithinLimits) (calls : List Call) :
    (play s.1 s.2 calls).1.WithinLimits :=
  List.foldlRecOn (motive := fun s : World × α => s.1.WithinLimits) calls call h
    fun _ hs c _ => withinLimits_call hs c

/-! ### Pickups that fit -/

/-- No orb that is collected in some calls finds its counter full. -/
def PickupsFit : World × α → List Call → Prop
  | _, [] => True
  | s, c :: calls =>
    (∀ p ∈ played s c, Player.HasRoomFor s.1.catalog.settings.player (picking p).player
      ((emitted s c).filterMap orb?)) ∧
    PickupsFit (call s c) calls

instance PickupsFit.decidable :
    (s : World × α) → (calls : List Call) → Decidable (PickupsFit s calls)
  | _, [] => inferInstanceAs (Decidable True)
  | s, c :: calls =>
    have := PickupsFit.decidable (call s c) calls
    inferInstanceAs (Decidable (_ ∧ _))

/-- What fits fits to the end. -/
theorem PickupsFit.of_append {calls later : List Call} (h : PickupsFit s (calls ++ later)) :
    PickupsFit (play s.1 s.2 calls) later := by
  induction calls generalizing s with
  | nil => exact h
  | cons c calls ih => exact ih h.2

/-- **A pickup costs nothing but bombs above the limit.** Take any catalog, and any calls of a
session. Power is within its limit then, and there are no more bombs than the limit allows or a run
begins with. In a tick that is played after that, and in a run in which no counter overflows, the
powerups do to the counters of the game what the orbs do that the tick tells of, one after the
other: a life for every extend, a shield, and power and bombs up to their limits. Lives and power do
not get less, and a shield is not lost. Neither do bombs, if a run begins with no more of them than
the limit; otherwise there are less of them afterwards exactly if a bomb was collected with more
than the limit at hand. -/
theorem pickups_cost_only_bombs_above_the_limit (catalog : Catalog) (audio : α)
    (calls : List Call) :
    let s := play (new catalog) audio calls
    let limits := catalog.settings.player
    s.1.player.power ≤ limits.powerLimit ∧
      s.1.player.bombs ≤ max limits.bombs limits.bombLimit ∧
      ∀ c p, played s c = some p → PickupsFit (new catalog, audio) (calls ++ [c]) →
        let orbs := (emitted s c).filterMap orb?
        let before := (picking p).player
        let after := ((picking p).tickPowerups p.dt).player
        after = orbs.foldl (fun p orb => p.grantWord orb limits) before ∧
          before.Enriched limits orbs after ∧
          before.lives ≤ after.lives ∧ before.power ≤ after.power ∧
          (before.shielded = true → after.shielded = true) ∧
          (limits.bombs ≤ limits.bombLimit → before.bombs ≤ after.bombs) ∧
          (after.bombs < before.bombs ↔ .bomb ∈ orbs ∧ limits.bombLimit < before.bombs) := by
  intro s limits
  have hcatalog : s.1.catalog = catalog := catalog_play (new catalog) audio calls
  have hlimits : s.1.WithinLimits :=
    withinLimits_play (s := (new catalog, audio)) ⟨Nat.zero_le _, Nat.le_max_left _ _⟩ calls
  have hnow : s.1.player.WithinLimits limits := by
    rw [WithinLimits, hcatalog] at hlimits
    exact hlimits
  refine ⟨hnow.power, hnow.bombs, fun c p hplayed hfit => ?_⟩
  intro orbs before after
  have hbefore : before.WithinLimits limits := by
    have hpicking := withinLimits_picking hlimits hplayed
    rwa [hcatalog] at hpicking
  have hroom : Player.HasRoomFor limits before orbs := by
    have hlast := hfit.of_append.1 p hplayed
    rwa [catalog_play] at hlast
  have hgranted : after = orbs.foldl (fun p orb => p.grant orb limits) before := by
    have hpickups := pickups_of_played hplayed
    rwa [hcatalog] at hpickups
  have horbs : before.Enriched limits orbs after := by
    rw [hgranted]
    exact Player.enriched_foldl_grant limits orbs before
  refine ⟨hgranted.trans (Player.foldl_grantWord_eq hroom).symm, horbs, ?_, ?_,
    fun hshield => horbs.shielded.mpr (.inl hshield), fun hstart => ?_, ?_⟩
  · rw [horbs.lives]
    exact Nat.le_add_right _ _
  · rw [horbs.power]
    exact le_stocked hbefore.power _
  · rw [horbs.bombs]
    exact le_stocked (hbefore.bombs.trans (max_le hstart (Nat.le_refl _))) _
  · rw [horbs.bombs, stocked_lt_iff, List.count_pos_iff]

/-- The game in which a powerup is collected at once, with more bombs at the start of a run than the
limit. -/
def overstocked : Catalog :=
  { upgradeCatalog with settings := { player := { bombs := 7, bombLimit := 5 } } }

/-- The three orbs of the powerup bring a shield and power. They leave five bombs of seven. -/
theorem pickups_cost_only_bombs_above_the_limit_of_overstocked :
    Catalog.ofConfig
        { upgrade with settings := { player := { bombs := 7, bombLimit := 5 } } } =
      .ok overstocked ∧
      PickupsFit (new overstocked, HeadlessAudio.new 60) [.startGame 0, .tick {} 1 0.02] ∧
      ∃ p, played (play (new overstocked) (HeadlessAudio.new 60) [.startGame 0]) (.tick {} 1 0.02) =
          some p ∧
        (picking p).player.Enriched overstocked.settings.player [.shield, .power, .bomb]
          ((picking p).tickPowerups p.dt).player ∧
        (picking p).player.bombs = 7 ∧ ((picking p).tickPowerups p.dt).player.bombs = 5 := by
  have hfit : PickupsFit (new overstocked, HeadlessAudio.new 60)
      [.startGame 0, .tick {} 1 0.02] := by decide +kernel
  have hbombs : (played (play (new overstocked) (HeadlessAudio.new 60) [.startGame 0])
      (.tick {} 1 0.02)).map (fun p => (picking p).player.bombs) = some 7 := by decide +kernel
  have horbs : (emitted (play (new overstocked) (HeadlessAudio.new 60) [.startGame 0])
      (.tick {} 1 0.02)).filterMap orb? = [.shield, .power, .bomb] := by decide +kernel
  obtain ⟨p, hplayed, hseven⟩ := Option.map_eq_some_iff.mp hbombs
  have henriched := ((pickups_cost_only_bombs_above_the_limit overstocked (HeadlessAudio.new 60)
    [.startGame 0]).2.2 _ p hplayed hfit).2.1
  rw [horbs] at henriched
  have hfive := henriched.bombs
  rw [hseven] at hfive
  exact ⟨rfl, hfit, p, hplayed, henriched, hseven, hfive⟩

end World

end BulletHell
