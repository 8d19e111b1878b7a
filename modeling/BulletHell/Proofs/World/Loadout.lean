import BulletHell.Proofs.Actor.Recycled
import BulletHell.Proofs.Catalog.Resolved
import BulletHell.Proofs.Pattern.Kept
import BulletHell.Proofs.World.Bombs

/-!
# The player's loadout

With every power level the player has other emitters. They are not taken up afresh in every tick,
as that would end the burst in progress: the player remembers the power that they were taken up for,
and leaves them alone as long as it is still the same. But power changes in other phases of a tick
than the one that looks for it, by pickups and by hits, up and down and also back again. So what has
to be shown is that the one look in a tick is enough.

What it comes to is told by a record of the run, which has for every tick the power at the time of
the look, and the fire gate as the tick has left it. The emitters are taken up anew if the record is
empty, or if the power is not the one in its last entry; otherwise the fire gate is the one in its
last entry, and all that has happened to it since is that its emitters have heard a beat.

## Why a dead player is left out

The last hit puts an end to the burst, after the fire gate was worked. Then the gate is not the one
in the record any more. But no tick of this run is played after that, so the record is never asked
for it.

## Main definitions

* `Emitter.issue`, `EmitterSpec.issue` — what an emitter is taken up with for good
* `Player.SameArms` — nothing was done to the fire gate and to what is loaded
* `World.aiming`, `World.picking` — the moments of a tick at which the fire gate is worked, and at
  which powerups are collected
* `World.reloads`, `World.heardBeat` — what has happened to the emitters just before
* `World.loadouts` — the entry of a tick in the record

## Main results

* `Player.issues_handleFire` — emitters keep their programs and places
* `Catalog.length_powerLevel_le` — no power level has too many emitters
* `World.aiming_player`, `World.sameArms_poised` — a tick up to the fire gate, and after it
* `World.Equipped.call`, `World.Equipped.play` — the record, by induction over the calls
* `World.player_fires_the_loadout_of_its_power`
-/

namespace BulletHell

/-! ### What is issued for good -/

/-- The program of an emitter, and its place. -/
def Emitter.issue (e : Emitter) : Program × Vec2 :=
  (e.program, e.offset)

def EmitterSpec.issue (spec : EmitterSpec) : Program × Vec2 :=
  (spec.program, spec.offset)

namespace Emitter

theorem issues_map_ofSpec (specs : List EmitterSpec) (maxDepth : Nat) (mirrored : Bool) :
    (specs.map (ofSpec maxDepth mirrored)).map issue = specs.map EmitterSpec.issue := by
  rw [List.map_map]
  rfl

theorem issues_map_onBeat (es : List Emitter) : (es.map onBeat).map issue = es.map issue := by
  rw [List.map_map]
  rfl

/-- A group keeps what its emitters keep. -/
theorem issues_actAll {σ : Type} {act : Emitter → σ → Bool × Emitter × σ}
    (hact : ∀ e ctx, (act e ctx).2.1.issue = e.issue) (es : List Emitter) (ctx : σ) :
    (actAll act es ctx).2.1.map issue = es.map issue := by
  induction es generalizing ctx with
  | nil => rfl
  | cons e rest ih => exact congrArg₂ List.cons (hact e ctx) (ih _)

variable {σ : Type} [FireContext σ]

theorem issue_tick (e : Emitter) (owner : Vec2) (ctx : σ) :
    (e.tick owner ctx).2.1.issue = e.issue :=
  Prod.ext ((kept_program e.program).tick rfl owner ctx) ((kept_offset e.offset).tick rfl owner ctx)

theorem issues_tickAll (es : List Emitter) (owner : Vec2) (ctx : σ) :
    (tickAll es owner ctx).2.1.map issue = es.map issue :=
  issues_actAll (fun e ctx => e.issue_tick owner ctx) es ctx

theorem issues_restartAll (es : List Emitter) (owner : Vec2) (ctx : σ) :
    (restartAll es owner ctx).2.1.map issue = es.map issue :=
  issues_actAll (fun e ctx => e.rewind.issue_tick owner ctx) es ctx

end Emitter

section Gate

variable {σ : Type} [FireContext σ]

theorem FireGate.issues_startBurst (g : FireGate) (owner : Vec2) (ctx : σ) :
    (g.startBurst owner ctx).1.emitters.map Emitter.issue = g.emitters.map Emitter.issue := by
  rw [startBurst]
  split
  · rfl
  · exact Emitter.issues_restartAll g.emitters owner ctx

theorem FireGate.issues_tick (g : FireGate) (owner : Vec2) (ctx : σ) :
    (g.tick owner ctx).1.emitters.map Emitter.issue = g.emitters.map Emitter.issue := by
  have hticked := Emitter.issues_tickAll g.emitters owner ctx
  rw [tick]
  dsimp only
  split
  · split
    · exact hticked
    · exact (issues_startBurst _ owner _).trans hticked
  · exact issues_startBurst _ owner ctx

/-- **Firing** leaves the programs and the places of all emitters alone. -/
theorem Player.issues_handleFire (p : Player) (fire : Bool) (settings : PlayerSettings) (ctx : σ) :
    (p.handleFire fire settings ctx).1.emitters.map Emitter.issue =
      p.emitters.map Emitter.issue := by
  refine (FireGate.issues_tick _ p.position ctx).trans ?_
  split <;> rfl

end Gate

/-! ### Loading -/

namespace Catalog

/-- A catalog that was loaded has no power level with more emitters than there is room for. -/
theorem length_powerLevel_le {config : GameConfig} {c : Catalog} (h : ofConfig config = .ok c)
    (power : Nat) : (c.powerLevel power).length ≤ c.settings.maxEmitters := by
  have hbears := bears_of_ofConfig h
  rcases c.powerLevel_mem power with hlevel | hnone
  · obtain ⟨es, hes, hspecs⟩ := exists_mem_of_forall₂ hbears.powerLevels hlevel
    rw [← hspecs.length_eq, hbears.settings]
    exact ((sound_of_ofConfig h).levels es hes).1
  · rw [hnone]
    exact Nat.zero_le _

end Catalog

namespace Player

theorem load_of_loaded {p : Player} (h : p.loadedPower = some p.power)
    (specs : List EmitterSpec) : p.load specs = p :=
  if_pos h

theorem load_of_ne {p : Player} (h : p.loadedPower ≠ some p.power) (specs : List EmitterSpec) :
    p.load specs =
      { p with
        gate :=
          ⟨(specs.take p.maxEmitters).map (Emitter.ofSpec p.maxDepth false), false, p.gate.frames⟩
        loadedPower := some p.power } :=
  if_neg h

/-- Nothing was done to the fire gate, to what is loaded, and to the room for it. -/
structure SameArms (p p' : Player) : Prop where
  gate : p'.gate = p.gate
  loadedPower : p'.loadedPower = p.loadedPower
  limits : p'.limits = p.limits

namespace SameArms

variable {p p' p'' : Player}

theorem refl (p : Player) : SameArms p p :=
  ⟨rfl, rfl, rfl⟩

theorem trans (h : SameArms p p') (h' : SameArms p' p'') : SameArms p p'' :=
  ⟨h'.gate.trans h.gate, h'.loadedPower.trans h.loadedPower, h'.limits.trans h.limits⟩

theorem foldl_grant (settings : PlayerSettings) (orbs : List Orb) (p : Player) :
    SameArms p (orbs.foldl (fun p orb => p.grant orb settings) p) :=
  List.foldlRecOn orbs _ (refl p) fun p' h orb _ => by
    cases orb <;> exact ⟨h.gate, h.loadedPower, h.limits⟩

end SameArms

end Player

/-! ### A tick up to the fire gate -/

/-- The gate, once its emitters have heard a beat. -/
def FireGate.onBeat (g : FireGate) : FireGate :=
  { g with emitters := g.emitters.map Emitter.onBeat }

namespace World

variable {α : Type} [AudioPlayer α Float]

/-- Was a beat heard in a tick, before anybody has acted? -/
def heardBeat (p : PlayedTick α) : Bool :=
  match (p.world.timeline.advance p.now p.world.catalog.stages p.audio).1 with
  | some (.beat _) => true
  | _ => false

/-- The player, once the timeline was followed. -/
def listening (p : PlayedTick α) : Player :=
  if heardBeat p then p.world.player.onBeat else p.world.player

/-- A beat is heard by the emitters, and by nothing else. -/
theorem listening_eq (p : PlayedTick α) :
    listening p =
      { p.world.player with
        gate := if heardBeat p then p.world.player.gate.onBeat else p.world.player.gate } := by
  rw [listening]
  split <;> rfl

/-- Are the emitters taken up anew in a tick? -/
def reloads (p : PlayedTick α) : Prop :=
  (listening p).loadedPower ≠ some (listening p).power

/-- The moment of a tick that is played at which the fire gate is worked. -/
def aiming (p : PlayedTick α) : World :=
  let w := ({ p.world with tickCount := p.world.tickCount + 1 }.followTimeline p.now p.audio).1
  (w.tickEnemies p.now).setOut p.input.movement p.dt

theorem fired_eq (p : PlayedTick α) : fired p = (aiming p).workGate p.input.fire :=
  rfl

theorem followTimeline_player (p : PlayedTick α) :
    ({ p.world with tickCount := p.world.tickCount + 1 }.followTimeline p.now p.audio).1.player =
      listening p := by
  rw [followTimeline, listening, heardBeat]
  rcases p.world.timeline.advance p.now p.world.catalog.stages p.audio with
    ⟨_ | ⟨_ | info⟩, t', audio⟩
  · rfl
  · rfl
  · exact onTimelineEvent_player _ info p.now

theorem followTimeline_catalog (p : PlayedTick α) :
    ({ p.world with tickCount := p.world.tickCount + 1 }.followTimeline p.now p.audio).1.catalog =
      p.world.catalog :=
  (keeps_followTimeline { p.world with tickCount := p.world.tickCount + 1 } p.now p.audio).catalog

/-- **A tick up to the fire gate**, for the player. -/
theorem aiming_player (p : PlayedTick α) :
    (aiming p).player =
      ((listening p).load (p.world.catalog.powerLevel (listening p).power)).move p.input.movement
        p.world.catalog.settings.player p.dt := by
  rw [← followTimeline_player, ← followTimeline_catalog p]
  rfl

variable {p : PlayedTick α}

theorem aiming_power (p : PlayedTick α) : (aiming p).player.power = (listening p).power := by
  rw [aiming_player, Player.load]
  split <;> rfl

/-- Once the emitters were seen to, they are those of the power. -/
theorem aiming_loadedPower (p : PlayedTick α) :
    (aiming p).player.loadedPower = some (aiming p).player.power := by
  rw [aiming_power, aiming_player]
  by_cases hloaded : (listening p).loadedPower = some (listening p).power
  · rw [Player.load_of_loaded hloaded]
    exact hloaded
  · rw [Player.load_of_ne hloaded]
    rfl

/-- Emitters that are not taken up anew are left alone, and so is their burst. -/
theorem aiming_gate_of_not_reloads (h : ¬ reloads p) :
    (aiming p).player.gate = (listening p).gate := by
  rw [aiming_player, Player.load_of_loaded (not_not.mp h)]
  rfl

/-- Emitters that are taken up anew are fresh, and no burst is in progress. -/
theorem aiming_gate_of_reloads (h : reloads p) :
    (aiming p).player.gate =
      ⟨((p.world.catalog.powerLevel (listening p).power).take (listening p).maxEmitters).map
        (Emitter.ofSpec (listening p).maxDepth false), false, (listening p).gate.frames⟩ := by
  rw [aiming_player, Player.load_of_ne h]
  rfl

/-! ### A tick after the fire gate -/

/-- The moment of a tick that is played at which the powerups are ticked. -/
def picking (p : PlayedTick α) : World :=
  if p.input.bomb then (fired p).useBomb.2 else fired p

theorem poised_eq_picking (p : PlayedTick α) :
    poised p = ((picking p).tickPowerups p.dt).tickShots p.dt :=
  rfl

/-- Working the fire gate is the last that is done to it in a tick. -/
theorem sameArms_poised (p : PlayedTick α) :
    Player.SameArms (fired p).player (poised p).player := by
  have hbombed : Player.SameArms (fired p).player (picking p).player := by
    rw [picking]
    split
    · rw [useBomb_eq]
      split <;> exact ⟨rfl, rfl, rfl⟩
    · exact .refl _
  rw [poised_eq_picking]
  obtain ⟨told, hgranted⟩ := (picking p).exists_granted_tickPowerups p.dt
  have hpicked := Player.SameArms.foldl_grant (picking p).catalog.settings.player
    (told.filterMap GameEvent.orb?) (picking p).player
  rw [← hgranted.player] at hpicked
  exact hbombed.trans hpicked

/-- But for the last hit, after which the player is dead. -/
theorem arms_resolvePlayer (w : World) :
    w.resolvePlayer.player.loadedPower = w.player.loadedPower ∧
      w.resolvePlayer.player.limits = w.player.limits ∧
      (w.resolvePlayer.player.isAlive = true → w.resolvePlayer.player.gate = w.player.gate) := by
  rcases w.resolvePlayer_player with hspared | ⟨event, hstruck⟩
  · rw [hspared]
    exact ⟨rfl, rfl, fun _ => rfl⟩
  · generalize w.resolvePlayer.player = p at hstruck
    cases hstruck with
    | shield => exact ⟨rfl, rfl, fun _ => rfl⟩
    | life => exact ⟨rfl, rfl, fun _ => rfl⟩
    | lastLife => exact ⟨rfl, rfl, fun halive => absurd halive Bool.false_ne_true⟩

/-- After the tick the arms are those that the fire gate was left with, if the player is alive. -/
theorem arms_of_played {s : World × α} {a : Call} (h : played s a = some p) :
    (call s a).1.player.loadedPower = (fired p).player.loadedPower ∧
      (call s a).1.player.limits = (fired p).player.limits ∧
      ((call s a).1.player.isAlive = true → (call s a).1.player.gate = (fired p).player.gate) := by
  have hsame := sameArms_poised p
  obtain ⟨hloaded, hlimits, hgate⟩ := (facing p).arms_resolvePlayer
  rw [facing_player, ← call_eq_resolvePlayer h] at hloaded hlimits hgate
  exact ⟨hloaded.trans hsame.loadedPower, hlimits.trans hsame.limits,
    fun halive => (hgate halive).trans hsame.gate⟩

/-! ### The record -/

/-- The power for which a tick has worked the fire gate, and the gate as it was left. -/
structure Loadout where
  power : Nat
  gate : FireGate

/-- The loadout that a call has played with, if it has. -/
def loadouts (s : World × α) (c : Call) : List Loadout :=
  (played s c).toList.map fun p => ⟨(fired p).player.power, (fired p).player.gate⟩

/-- What the record of a run says of the player, while the run goes on. -/
structure Equipped (c : Catalog) (w : World) (record : List Loadout) : Prop where
  catalog : w.catalog = c
  limits : w.player.limits = (c.settings.maxEmitters, c.settings.maxRepeatDepth)
  loaded : w.player.loadedPower = record.getLast?.map (·.power)
  gate : ∀ l, record.getLast? = some l → w.player.isAlive = true → w.player.gate = l.gate
  issued : ∀ l ∈ record,
    l.gate.emitters.map Emitter.issue = (c.powerLevel l.power).map EmitterSpec.issue

/-- The fire gate changes its emitters, but not what they were issued with. -/
theorem fired_player (p : PlayedTick α) :
    (fired p).player.power = (aiming p).player.power ∧
      (fired p).player.loadedPower = (aiming p).player.loadedPower ∧
      (fired p).player.limits = (aiming p).player.limits ∧
      (fired p).player.emitters.map Emitter.issue =
        (aiming p).player.emitters.map Emitter.issue := by
  rw [fired_eq]
  exact ⟨rfl, rfl, rfl, Player.issues_handleFire _ _ _ _⟩

theorem limits_listening (p : PlayedTick α) : (listening p).limits = p.world.player.limits := by
  rw [listening_eq]
  rfl

theorem limits_aiming (p : PlayedTick α) : (aiming p).player.limits = p.world.player.limits := by
  rw [aiming_player, ← limits_listening]
  exact Player.limits_load _ _

namespace Equipped

variable {c : Catalog} {w w' : World} {record : List Loadout}

/-- A player with the room of the catalog to whom nothing was issued yet. -/
theorem nil (hcatalog : w.catalog = c)
    (hlimits : w.player.limits = (c.settings.maxEmitters, c.settings.maxRepeatDepth))
    (hloaded : w.player.loadedPower = none) : Equipped c w [] where
  catalog := hcatalog
  limits := hlimits
  loaded := hloaded
  gate l hl := by cases hl
  issued l hl := by cases hl

theorem of_eq (h : Equipped c w record) (hcatalog : w'.catalog = w.catalog)
    (hplayer : w'.player = w.player) : Equipped c w' record :=
  ⟨hcatalog.trans h.catalog, hplayer ▸ h.limits, hplayer ▸ h.loaded, hplayer ▸ h.gate, h.issued⟩

/-- **The emitters are taken up anew** exactly if the last tick of the run, if there was one, has
played with another power. -/
theorem reloads_iff (h : Equipped c p.world record) :
    reloads p ↔ ∀ l, record.getLast? = some l → l.power ≠ (aiming p).player.power := by
  have hloaded : (listening p).loadedPower = record.getLast?.map (·.power) := by
    rw [← h.loaded, listening_eq]
  rw [reloads, hloaded, aiming_power]
  cases record.getLast? with
  | none => exact iff_of_true (fun hnone => by cases hnone) fun _ hl => by cases hl
  | some last => simp

/-- Otherwise the fire gate is the one that the last tick has left. -/
theorem kept_gate (h : Equipped c p.world record) (halive : p.world.player.isAlive = true)
    (hkept : ¬ reloads p) :
    ∃ l, record.getLast? = some l ∧ l.power = (aiming p).player.power ∧
      (aiming p).player.gate = if heardBeat p then l.gate.onBeat else l.gate := by
  have hlast := hkept
  simp only [h.reloads_iff, not_forall, ne_eq, not_not] at hlast
  obtain ⟨l, hl, hpower⟩ := hlast
  refine ⟨l, hl, hpower, ?_⟩
  rw [aiming_gate_of_not_reloads hkept, listening_eq, h.gate l hl halive]

/-- The emitters that are taken up are those of the power, all of them. -/
theorem fresh_gate (h : Equipped c p.world record)
    (hfits : ∀ power, (c.powerLevel power).length ≤ c.settings.maxEmitters)
    (hreloads : reloads p) :
    (aiming p).player.gate =
      ⟨(c.powerLevel (aiming p).player.power).map (Emitter.ofSpec c.settings.maxRepeatDepth false),
        false, (listening p).gate.frames⟩ := by
  have hlimits : (listening p).limits = (c.settings.maxEmitters, c.settings.maxRepeatDepth) :=
    (limits_listening p).trans h.limits
  have hroom : (listening p).maxEmitters = c.settings.maxEmitters := congrArg Prod.fst hlimits
  have hdepth : (listening p).maxDepth = c.settings.maxRepeatDepth := congrArg Prod.snd hlimits
  rw [aiming_gate_of_reloads hreloads, aiming_power, h.catalog, hroom, hdepth,
    List.take_of_length_le (hfits _)]

/-- **Whenever the fire gate is worked**, the emitters are those of the power. -/
theorem issued_aiming (h : Equipped c p.world record) (halive : p.world.player.isAlive = true)
    (hfits : ∀ power, (c.powerLevel power).length ≤ c.settings.maxEmitters) :
    (aiming p).player.emitters.map Emitter.issue =
      (c.powerLevel (aiming p).player.power).map EmitterSpec.issue := by
  by_cases hreloads : reloads p
  · rw [Player.emitters, h.fresh_gate hfits hreloads]
    exact Emitter.issues_map_ofSpec _ _ _
  · obtain ⟨l, hl, hpower, hgate⟩ := h.kept_gate halive hreloads
    have hissued := h.issued l (List.mem_of_getLast? hl)
    rw [Player.emitters, hgate, ← hpower, ← hissued]
    split
    · exact Emitter.issues_map_onBeat _
    · rfl

/-- **A tick that is played** adds an entry to the record. -/
theorem tick {s : World × α} {a : Call} (h : Equipped c s.1 record) (hplayed : played s a = some p)
    (hfits : ∀ power, (c.powerLevel power).length ≤ c.settings.maxEmitters) :
    Equipped c (World.call s a).1
      (record ++ [⟨(fired p).player.power, (fired p).player.gate⟩]) := by
  have hidle := idles_of_played hplayed
  have hready : Equipped c p.world record := h.of_eq hidle.catalog hidle.player
  have halive : p.world.player.isAlive = true := (call_of_played hplayed).2.2
  obtain ⟨hpower, hloaded, hlimits, hissues⟩ := fired_player p
  obtain ⟨hloaded', hlimits', hgate'⟩ := arms_of_played hplayed
  have hlast : (record ++ [(⟨(fired p).player.power, (fired p).player.gate⟩ : Loadout)]).getLast? =
      some ⟨(fired p).player.power, (fired p).player.gate⟩ := List.getLast?_concat
  refine ⟨?_, ?_, ?_, fun l hl hsurvives => ?_, fun l hl => ?_⟩
  · exact (catalog_play s.1 s.2 [a]).trans h.catalog
  · rw [hlimits', hlimits, limits_aiming, hready.limits]
  · rw [hloaded', hloaded, aiming_loadedPower, hlast, hpower]
    rfl
  · rw [hlast] at hl
    obtain rfl := Option.some.inj hl
    exact hgate' hsurvives
  · rcases List.mem_append.mp hl with hold | hnew
    · exact h.issued l hold
    · rw [List.mem_singleton.mp hnew, hpower]
      exact hissues.trans (hready.issued_aiming halive hfits)

end Equipped

/-! ### Calls -/

/-- A run begins with a player to whom nothing was issued. A beat that comes with it is not heard
by anything. -/
theorem startGame_player (w : World) (now : Float) (audio : α) :
    (w.startGame now audio).1.player = w.player.reset w.catalog.settings.player := by
  rw [startGame_eq]
  cases (w.timeline.start now w.catalog.stages audio).1 with
  | none => rfl
  | some event =>
    cases event with
    | stageStarted => rfl
    | beat info => exact onTimelineEvent_player _ info now

theorem player_of_starts {s : World × α} {a : Call} (h : a.starts = true) :
    (call s a).1.player = s.1.player.reset s.1.catalog.settings.player := by
  cases a with
  | tick input now dt =>
    have hrestart : input.restart = true := h
    have haged : (s.1.age dt).player = s.1.player ∧ (s.1.age dt).catalog = s.1.catalog := by
      rw [age]
      split <;> exact ⟨rfl, rfl⟩
    rw [call, tick_eq, hrestart, if_pos rfl, startGame_player, haged.1, haged.2]
  | startGame now => exact startGame_player s.1 now s.2
  | _ => cases h

theorem played_of_starts {s : World × α} {a : Call} (h : a.starts = true) : played s a = none := by
  cases hplayed : played s a with
  | none => rfl
  | some p =>
    cases a with
    | tick input now dt => exact absurd (h.symm.trans (played_tick_eq_some hplayed).2.1) (by simp)
    | _ => cases hplayed

namespace Equipped

variable {c : Catalog} {s : World × α} {record : List Loadout}

/-- **One call.** -/
theorem call (h : Equipped c s.1 record)
    (hfits : ∀ power, (c.powerLevel power).length ≤ c.settings.maxEmitters) (a : Call) :
    Equipped c (World.call s a).1
      (if a.starts then loadouts s a else record ++ loadouts s a) := by
  have hcatalog : (World.call s a).1.catalog = s.1.catalog := catalog_play s.1 s.2 [a]
  by_cases hstarts : a.starts = true
  · have hplayer := player_of_starts (s := s) hstarts
    rw [if_pos hstarts, loadouts, played_of_starts hstarts]
    refine .nil (hcatalog.trans h.catalog) ?_ ?_
    · rw [hplayer]
      exact h.limits
    · rw [hplayer]
      rfl
  rw [if_neg hstarts, loadouts]
  rcases weathered_call s a with ⟨hbegun, -⟩ | ⟨hidle, -, hplayer, -, -⟩ | ⟨hplayed, -, -⟩
  · exact absurd hbegun hstarts
  · rw [hidle, Option.toList_none, List.map_nil, List.append_nil]
    exact h.of_eq hcatalog hplayer
  · rw [hplayed]
    exact h.tick hplayed hfits

/-- **Some calls.** -/
theorem play (h : Equipped c s.1 record)
    (hfits : ∀ power, (c.powerLevel power).length ≤ c.settings.maxEmitters) (calls : List Call) :
    Equipped c (World.play s.1 s.2 calls).1 (sinceStart loadouts s record calls) := by
  induction calls generalizing s record with
  | nil => exact h
  | cons a calls ih => exact ih (h.call hfits a)

end Equipped

/-- **The player fires the loadout of its power.** Take any configuration that loads, any calls of a
session, and a tick that is played after them. When the fire gate is worked in it, the emitters have
the programs and the places of the power level, one for one. They are taken up anew only if no tick
of the run was played before, or if the last one was played with another power; they are fresh then,
and no burst is in progress. Otherwise the gate is the one that the last tick has left, burst and
all, but for a beat that is heard in this tick; so it does not matter what became of the power in
between. -/
theorem player_fires_the_loadout_of_its_power {config : GameConfig} {catalog : Catalog}
    (hload : Catalog.ofConfig config = .ok catalog) (audio : α) (calls : List Call) {c : Call}
    {p : PlayedTick α} (hplayed : played (play (new catalog) audio calls) c = some p) :
    let record := sinceStart loadouts (new catalog, audio) [] calls
    let player := (aiming p).player
    player.emitters.map Emitter.issue =
        (catalog.powerLevel player.power).map EmitterSpec.issue ∧
      (reloads p ↔ ∀ l, record.getLast? = some l → l.power ≠ player.power) ∧
      (reloads p →
        player.emitters = (catalog.powerLevel player.power).map
          (Emitter.ofSpec catalog.settings.maxRepeatDepth false) ∧ player.isFiring = false) ∧
      (¬ reloads p → ∃ l, record.getLast? = some l ∧
        player.gate = if heardBeat p then l.gate.onBeat else l.gate) := by
  intro record player
  have hfits := Catalog.length_powerLevel_le hload
  have hequipped : Equipped catalog (play (new catalog) audio calls).1 record :=
    (Equipped.nil (w := new catalog) rfl rfl rfl).play (s := (new catalog, audio)) hfits calls
  have hidle := idles_of_played hplayed
  have hready : Equipped catalog p.world record := hequipped.of_eq hidle.catalog hidle.player
  have halive : p.world.player.isAlive = true := (call_of_played hplayed).2.2
  refine ⟨hready.issued_aiming halive hfits, hready.reloads_iff, fun hreloads => ?_,
    fun hkept => ?_⟩
  · have hgate := hready.fresh_gate hfits hreloads
    exact ⟨congrArg FireGate.emitters hgate, congrArg FireGate.firing hgate⟩
  · obtain ⟨l, hl, -, hgate⟩ := hready.kept_gate halive hkept
    exact ⟨l, hl, hgate⟩

/-- A game with two power levels, and with a powerup that is collected at once. -/
def upgrade : GameConfig where
  shots := [⟨"bolt", .enemy, 5, 0.08⟩]
  powerup := { tripleDuration := 0.01, orbDistance := 10 }
  player := ⟨[[{ shot := "bolt", program := [.fire, .waitFrames 4] }],
    [{ shot := "bolt", program := [.fire, .waitFrames 4] },
      { shot := "bolt", offset := ⟨0.5, 0⟩, program := [.fire, .waitFrames 8] }]]⟩
  stages := [⟨"stage", "track", 120, "", 0, [], [{ beat := 0, lane := 0, prefab := "powerup" }]⟩]

/-- The same game, loaded. -/
def upgradeCatalog : Catalog where
  settings := {}
  shots := upgrade.shots
  enemies := []
  powerup := upgrade.powerup
  powerLevels := [[⟨Vec2.zero, ⟨0⟩, 1, ⟨[.fire, .waitFrames 4]⟩⟩],
    [⟨Vec2.zero, ⟨0⟩, 1, ⟨[.fire, .waitFrames 4]⟩⟩,
      ⟨⟨0.5, 0⟩, ⟨0⟩, 1, ⟨[.fire, .waitFrames 8]⟩⟩]]
  stages := [⟨"stage", "track", 120, "", 0, [⟨0, 0, .powerup, .none, false, none, false⟩]⟩]
  refused := []

/-- The game after a tick in which the player has fired, and has then collected the powerup. -/
def upgraded : World × HeadlessAudio Float :=
  play (new upgradeCatalog) (HeadlessAudio.new 60)
    [.startGame 0, .tick { fire := true } 1 0.02]

/-- In the next tick the emitters are those of the next level. -/
theorem player_fires_the_loadout_of_its_power_of_upgrade :
    Catalog.ofConfig upgrade = .ok upgradeCatalog ∧
      ∃ p, played upgraded (.tick { fire := true } 1.02 0.02) = some p ∧ reloads p ∧
        (aiming p).player.emitters.map Emitter.issue =
          (upgradeCatalog.powerLevel 1).map EmitterSpec.issue ∧
        (aiming p).player.emitters.length = 2 ∧ (aiming p).player.isFiring = false := by
  have hload : Catalog.ofConfig upgrade = .ok upgradeCatalog := rfl
  have hnow : (played upgraded (.tick { fire := true } 1.02 0.02)).map
      (fun p => (aiming p).player.power) = some 1 := by decide +kernel
  have hlast : (sinceStart loadouts (new upgradeCatalog, HeadlessAudio.new 60) []
      [.startGame 0, .tick { fire := true } 1 0.02]).getLast?.map (·.power) = some 0 := by
    decide +kernel
  obtain ⟨p, hplayed, hpower⟩ := Option.map_eq_some_iff.mp hnow
  obtain ⟨hissued, hreloads, hfresh, -⟩ :=
    player_fires_the_loadout_of_its_power hload (HeadlessAudio.new 60)
      [.startGame 0, .tick { fire := true } 1 0.02] hplayed
  rw [hpower] at hissued hreloads
  have hanew := hreloads.mpr fun l hl => by
    rw [hl] at hlast
    have hzero : l.power = 0 := Option.some.inj hlast
    rw [hzero]
    decide
  have hlength := congrArg List.length hissued
  rw [List.length_map] at hlength
  exact ⟨hload, p, hplayed, hanew, hissued, hlength, (hfresh hanew).2⟩

end World

end BulletHell
