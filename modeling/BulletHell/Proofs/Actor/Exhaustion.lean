import BulletHell.Proofs.Actor.Latch
import BulletHell.Proofs.Actor.Succession

/-!
# Shots that found no room

Whoever fires is told whether there was room for the shot, and makes nothing of it. So a full pool
drops shots, and that is all that it does: no pattern is shifted, delayed or repeated by it. To say
this, the same calls are made twice, in surroundings that aim and draw alike but have room for
different shots, and the two histories are the same, call by call: the answers, the shots that were
asked for, and the whole state afterwards.

Between two calls the world goes on, and the surroundings change. One may leave them as the last
call left them, or put others in their place; all that matters is that they stay alike. So a change
of the surroundings is part of every call here, and it need not be the same in both runs.

An enemy and the player have different calls. What is compared and why it is the same is no
different, and is said once, of any owner of emitters that acts the same way in surroundings that
are alike. That the owner knows nothing else of its surroundings is part of what an owner is: its
actions are given for all surroundings at once.

## Main definitions

* `Owner` — who fires through emitters, and only looks at angles and draws
* `Occasion`, `Owner.history` — calls, and what is seen of them
* `Enemy.owner`, `Player.owner`

## Main results

* `Owner.glimpse_alike`, `Owner.history_alike` — one call, and any number of them
* `FireControl.sameAim_alike` — the pools of a world are of no account
* `Owner.exhaustion_goes_unnoticed`
-/

namespace BulletHell

variable {σ σ' α ι : Type} {R : σ → σ' → Prop} {c : σ} {c' : σ'}

/-! ### Owners -/

/-- Who fires through emitters. A call may have an answer. -/
structure Owner (α ι : Type) where
  act : ∀ {σ : Type} [FireContext σ], α → ι → σ → Option Bool × α × σ
  /-- It goes the same way wherever angles and draws are the same. -/
  alike : ∀ {σ σ' : Type} [FireContext σ] [FireContext σ'] {R : σ → σ' → Prop},
    FireContext.Alike R → ∀ {c : σ} {c' : σ'}, R c c' → ∀ a call,
      ∃ d', act a call c' = ((act a call c).1, (act a call c).2.1, d') ∧ R (act a call c).2.2 d'

/-- A call, and what becomes of the surroundings before it. -/
structure Occasion (σ ι : Type) where
  meanwhile : σ → σ
  call : ι

/-- The same call. What happens before it leaves the surroundings alike. -/
structure Occasion.Alike (R : σ → σ' → Prop) (o : Occasion σ ι) (o' : Occasion σ' ι) : Prop where
  call : o'.call = o.call
  meanwhile : ∀ {c : σ} {c' : σ'}, R c c' → R (o.meanwhile c) (o'.meanwhile c')

/-- A call before which nothing happens. -/
def Occasion.atOnce (call : ι) : Occasion σ ι :=
  ⟨id, call⟩

/-- Calls at once are alike in any surroundings. -/
theorem Occasion.alike_atOnce (R : σ → σ' → Prop) (calls : List ι) :
    List.Forall₂ (Occasion.Alike R) (calls.map Occasion.atOnce) (calls.map Occasion.atOnce) := by
  induction calls with
  | nil => exact .nil
  | cons call calls ih => exact .cons ⟨rfl, id⟩ ih

/-- What is seen of a call. -/
structure Glimpse (α : Type) where
  answer : Option Bool
  /-- The shots that were asked for. -/
  requests : List ShotRequest
  /-- The state afterwards. -/
  owner : α

namespace Owner

variable [FireContext σ] [FireContext σ'] (o : Owner α ι)

def glimpse (a : α) (call : ι) (c : σ) : Glimpse α :=
  ⟨(o.act a call c).1, (o.act a call (Noted.blank c)).2.2.requests, (o.act a call c).2.1⟩

/-- What is seen of some calls. -/
def history : α → σ → List (Occasion σ ι) → List (Glimpse α)
  | _, _, [] => []
  | a, c, first :: calls =>
    let c := first.meanwhile c
    o.glimpse a first.call c :: history (o.act a first.call c).2.1 (o.act a first.call c).2.2 calls

/-- What some calls leave of the surroundings. -/
def left : α → σ → List (Occasion σ ι) → σ
  | _, c, [] => c
  | a, c, first :: calls =>
    let c := first.meanwhile c
    left (o.act a first.call c).2.1 (o.act a first.call c).2.2 calls

end Owner

/-- Surroundings that are related, and the same shots asked for. -/
def Noted.Alike (R : σ → σ' → Prop) (noted : Noted σ) (noted' : Noted σ') : Prop :=
  R noted.context noted'.context ∧ noted'.requests = noted.requests

section Alike

variable [FireContext σ] [FireContext σ']

/-- Taking notes does not get in the way. -/
theorem FireContext.Alike.noted (hR : FireContext.Alike R) : Alike (Noted.Alike R) where
  angle h origin := hR.angle h.1 origin
  random := by
    rintro noted noted' ⟨hcontext, hrequests⟩ spread
    obtain ⟨d', hdraw, hd⟩ := hR.random hcontext spread
    refine ⟨⟨d', noted'.requests⟩, ?_, hd, hrequests⟩
    show ((FireContext.randomSpread noted'.context spread).1,
      (⟨(FireContext.randomSpread noted'.context spread).2, noted'.requests⟩ : Noted σ')) = _
    rw [hdraw]
    rfl
  spawn := by
    rintro noted noted' ⟨hcontext, hrequests⟩ request
    exact ⟨hR.spawn hcontext request, congrArg (· ++ [request]) hrequests⟩

namespace Owner

variable (o : Owner α ι)

/-- **One call.** -/
theorem glimpse_alike (hR : FireContext.Alike R) (h : R c c') (a : α) (call : ι) :
    o.glimpse a call c' = o.glimpse a call c ∧
      (o.act a call c').2.1 = (o.act a call c).2.1 ∧
      R (o.act a call c).2.2 (o.act a call c').2.2 := by
  have hblank : Noted.Alike R (Noted.blank c) (Noted.blank c') := ⟨h, rfl⟩
  obtain ⟨d', hact, hd⟩ := o.alike hR h a call
  obtain ⟨noted', hnoted, -, hrequests⟩ := o.alike hR.noted hblank a call
  rw [glimpse, glimpse, hact, hnoted]
  exact ⟨congrArg (Glimpse.mk _ · _) hrequests, rfl, hd⟩

/-- **Any number of calls.** What is left of the surroundings is still alike, so that the two runs
can be continued in the same way. -/
theorem history_alike (hR : FireContext.Alike R) (h : R c c') (a : α)
    {calls : List (Occasion σ ι)} {calls' : List (Occasion σ' ι)}
    (hcalls : List.Forall₂ (Occasion.Alike R) calls calls') :
    o.history a c' calls' = o.history a c calls ∧
      R (o.left a c calls) (o.left a c' calls') := by
  induction hcalls generalizing a c c' with
  | nil => exact ⟨rfl, h⟩
  | @cons first first' _ _ hcall _ ih =>
    obtain ⟨hglimpse, hstate, hleft⟩ := o.glimpse_alike hR (hcall.meanwhile h) a first.call
    obtain ⟨hhistory, hlast⟩ := ih hleft (o.act a first.call (first.meanwhile c)).2.1
    simp only [history, left, hcall.call, hglimpse, hstate]
    exact ⟨congrArg _ hhistory, hlast⟩

end Owner

end Alike

/-! ### Enemies and the player -/

section Calls

variable [FireContext σ] [FireContext σ']

/-- What is done to an enemy, or to its slot. The surroundings are given apart. -/
def Enemy.act (e : Enemy) : Enemy.Deed Unit → σ → Option Bool × Enemy × σ
  | .spawn s timing, ctx => (none, e.spawn s timing, ctx)
  | .call (.tick now cutoff _), ctx =>
    let (alive, e, ctx) := e.tick now cutoff ctx
    (some alive, e, ctx)
  | .call (.beat timing), ctx => (none, e.onBeat timing, ctx)
  | .call (.unpause lost), ctx => (none, e.onUnpause lost, ctx)
  | .damage amount, ctx =>
    let (dead, e) := e.takeDamage amount
    (some dead, e, ctx)
  | .revenge _, ctx => (none, e, e.fireRevenge ctx)

theorem Enemy.act_alike (hR : FireContext.Alike R) (h : R c c') (e : Enemy)
    (d : Enemy.Deed Unit) :
    ∃ d', e.act d c' = ((e.act d c).1, (e.act d c).2.1, d') ∧ R (e.act d c).2.2 d' := by
  cases d with
  | call call =>
    cases call with
    | tick now cutoff _ =>
      obtain ⟨d', htick, hd⟩ := Enemy.tick_alike hR h e now cutoff
      simp only [act, htick]
      exact ⟨d', rfl, hd⟩
    | beat timing => exact ⟨c', rfl, h⟩
    | unpause lost => exact ⟨c', rfl, h⟩
  | revenge _ => exact ⟨_, rfl, Enemy.fireRevenge_alike hR h e⟩
  | _ => exact ⟨c', rfl, h⟩

/-- What the player is called for. Most of it has nothing to do with the surroundings. -/
def Player.act (settings : PlayerSettings) (p : Player) :
    Player.Call Unit → σ → Option Bool × Player × σ
  | .fire held _, ctx => (none, p.handleFire held settings ctx)
  | .beat, ctx => (none, p.onBeat, ctx)
  | .load specs, ctx => (none, p.load specs, ctx)
  | .move direction dt, ctx => (none, p.move direction settings dt, ctx)
  | .timers, ctx => (none, p.tickTimers, ctx)
  | .bomb, ctx => (some p.useBomb?.isSome, p.useBomb?.getD p, ctx)
  | .grant orb, ctx => (none, p.grant orb settings, ctx)
  | .hit, ctx => (none, (p.hit settings).2, ctx)

theorem Player.act_alike (hR : FireContext.Alike R) (h : R c c') (settings : PlayerSettings)
    (p : Player) (call : Player.Call Unit) :
    ∃ d', p.act settings call c' = ((p.act settings call c).1, (p.act settings call c).2.1, d') ∧
      R (p.act settings call c).2.2 d' := by
  cases call with
  | fire held _ =>
    obtain ⟨d', hfire, hd⟩ := Player.handleFire_alike hR h p held settings
    simp only [act, hfire]
    exact ⟨d', rfl, hd⟩
  | _ => exact ⟨c', rfl, h⟩

end Calls

/-- An enemy, and the slot in which one comes after another. -/
def Enemy.owner : Owner Enemy (Enemy.Deed Unit) :=
  ⟨Enemy.act, fun hR _ _ h e => Enemy.act_alike hR h e⟩

/-- The player. -/
def Player.owner (settings : PlayerSettings) : Owner Player (Player.Call Unit) :=
  ⟨Player.act settings, fun hR _ _ h p => Player.act_alike hR h settings p⟩

/-! ### Pools -/

/-- The same target, and the same draws to come. -/
structure FireControl.SameAim (f f' : FireControl) : Prop where
  target : f'.target = f.target
  fallbackAngle : f'.fallbackAngle = f.fallbackAngle
  rng : f'.rng = f.rng

/-- A shot is put in a pool and announced, and neither the target nor the draws depend on it. -/
theorem FireControl.sameAim_spawnShot (f : FireControl) (request : ShotRequest) :
    SameAim f (f.spawnShot request).2 := by
  rw [spawnShot]
  split
  · exact ⟨rfl, rfl, rfl⟩
  · split <;> exact ⟨rfl, rfl, rfl⟩

/-- **The pools of a world are of no account** to those who fire, and neither is what shots there
are. -/
theorem FireControl.sameAim_alike : FireContext.Alike SameAim where
  angle := by
    rintro f f' ⟨htarget, hfallback, -⟩ origin
    show f'.angleToTarget origin = f.angleToTarget origin
    rw [angleToTarget, angleToTarget, htarget, hfallback]
  random := by
    rintro f f' ⟨htarget, hfallback, hrng⟩ spread
    refine ⟨{ f' with rng := (f.randomSpread spread).2.rng }, ?_, htarget, hfallback, rfl⟩
    show f'.randomSpread spread = _
    rw [randomSpread, hrng]
    rfl
  spawn := by
    rintro f f' ⟨htarget, hfallback, hrng⟩ request
    obtain ⟨ht, hf, hr⟩ := f.sameAim_spawnShot request
    obtain ⟨ht', hf', hr'⟩ := f'.sameAim_spawnShot request
    exact ⟨(ht'.trans htarget).trans ht.symm, (hf'.trans hfallback).trans hf.symm,
      (hr'.trans hrng).trans hr.symm⟩

/-! ### Together -/

/-- **Exhaustion goes unnoticed.** In surroundings that aim and draw alike, whatever room there is
for shots, an enemy goes through the same states, answers the same and asks for the same shots, call
by call, and so does the player. -/
theorem Owner.exhaustion_goes_unnoticed [FireContext σ] [FireContext σ']
    (hR : FireContext.Alike R) (h : R c c') :
    (∀ (e : Enemy) calls calls', List.Forall₂ (Occasion.Alike R) calls calls' →
      Enemy.owner.history e c' calls' = Enemy.owner.history e c calls ∧
        R (Enemy.owner.left e c calls) (Enemy.owner.left e c' calls')) ∧
    ∀ settings (p : Player) calls calls', List.Forall₂ (Occasion.Alike R) calls calls' →
      (Player.owner settings).history p c' calls' = (Player.owner settings).history p c calls ∧
        R ((Player.owner settings).left p c calls) ((Player.owner settings).left p c' calls') :=
  ⟨fun e _ _ => Enemy.owner.history_alike hR h e,
    fun settings p _ _ => (Player.owner settings).history_alike hR h p⟩

/-- A sky without a player, and with room for a single shot at him. -/
def FireControl.narrowSky : FireControl :=
  { emptySky with
    archetypes := [⟨"bolt", .player, 5, 0.08⟩]
    shots := ShotPools.new 1 0 0 }

/-- Shots in two modes. -/
def fanned : EmitterSpec :=
  ⟨Vec2.zero, ⟨0⟩, 1, ⟨[.offsetAngle 20, .fire, .setMode .random, .offsetAngle 40, .fire, .fire]⟩⟩

/-- An enemy that jumps from one place at the top of the screen to another. -/
def leaper : EnemySpawn where
  id := ⟨0⟩
  archetype := ⟨"leaper", 1, 0, [], [], [], .linear, .linear, [fanned]⟩
  lane := 0
  mirrored := false
  exempt := false
  route := some ⟨[{ target := ⟨0, 3⟩, beats := 0 }, { target := ⟨1, 3⟩, beats := 0 }], 0⟩

/-- It comes on screen, fires and hears a beat. In the end it is killed. -/
def leaperDeeds : List (Occasion FireControl (Enemy.Deed Unit)) :=
  [.spawn leaper ⟨0, 0.5, 4⟩, .call (.tick 0.1 (-1.5) ()), .call (.beat ⟨0.5, 0.5, 4⟩),
    .call (.tick 0.6 (-1.5) ()), .call (.tick 0.7 (-1.5) ()), .call (.tick 0.8 (-1.5) ()),
    .revenge ()].map .atOnce

/-- The player takes up the same emitter, and lets the button go after the second shot. -/
def fannedCalls : List (Occasion FireControl (Player.Call Unit)) :=
  [.load [fanned], .fire true (), .fire true (), .beat, .fire false (), .fire false ()].map .atOnce

/-- Where there is room for one shot, one is on its way at the end; where there is none, none is.
Nothing else is different, in this burst and in the one that begins behind it. -/
theorem Owner.exhaustion_goes_unnoticed_of_leaper :
    let slot := Enemy.blank 4 8
    let player := Player.initial {} 4 8
    let inNarrowSky := Enemy.owner.history slot FireControl.narrowSky leaperDeeds
    FireControl.emptySky.SameAim FireControl.narrowSky ∧
      inNarrowSky = Enemy.owner.history slot FireControl.emptySky leaperDeeds ∧
      inNarrowSky.map (·.requests.map (·.angle)) = [[], [20], [], [-35], [39], [-17], [0]] ∧
      (Enemy.owner.left slot FireControl.narrowSky leaperDeeds).shots.activeCount = 1 ∧
      (Enemy.owner.left slot FireControl.emptySky leaperDeeds).shots.activeCount = 0 ∧
      (Player.owner {}).history player FireControl.narrowSky fannedCalls =
        (Player.owner {}).history player FireControl.emptySky fannedCalls := by
  intro slot player inNarrowSky
  have haim : FireControl.emptySky.SameAim FireControl.narrowSky := ⟨rfl, rfl, rfl⟩
  obtain ⟨henemy, hplayer⟩ := exhaustion_goes_unnoticed FireControl.sameAim_alike haim
  obtain ⟨hdeeds, -⟩ := henemy slot leaperDeeds leaperDeeds (Occasion.alike_atOnce _ _)
  obtain ⟨hcalls, -⟩ := hplayer {} player fannedCalls fannedCalls (Occasion.alike_atOnce _ _)
  exact ⟨haim, hdeeds, by decide +kernel, by decide +kernel, by decide +kernel, hcalls⟩

end BulletHell
