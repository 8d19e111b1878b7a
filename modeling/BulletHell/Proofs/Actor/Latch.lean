import BulletHell.Actor.Player
import BulletHell.Proofs.Actor.Holding
import BulletHell.Proofs.Pattern.Unfolding

/-!
# The fire latch

A press of the fire button counts for a few calls of the fire gate, and while it counts, a burst
that has ended is followed by another one. The gate keeps a countdown for this. It is set by a
press, lowered in every call, and looked at after that; so both ends of the latch depend on the
order of three steps in two functions.

The countdown itself is of no interest to anyone. What it says is said here by the presses: in how
many of the last calls the button was held. The two are related by a recursion over the presses,
the newest one first, and nothing else that happens to a player touches either of them.

A burst does not know of the latch. Once begun, it is over when all emitters have fallen through in
one and the same call, or when the emitters are exchanged, or with the last life.

## Main definitions

* `Player.Call`, `Player.after` — what a player is called for, and what becomes of the player
* `Player.presses`, `FireGate.countdown` — the fire button, and the number it leads to
* `Emitter.EachTicked`, `Player.BurstStep` — a burst in progress, in one call
* `Player.EndsBurst`, `Player.GoesOn` — calls that end a burst, and calls that do not

## Main results

* `FireGate.le_countdown_iff` — the number tells for how many calls more the last press counts
* `Player.frames_after`, `Player.isFiring_after` — any number of calls
* `Player.fire_latch_lasts_as_configured`
-/

namespace BulletHell

/-! ### Groups -/

section Groups

variable {σ : Type} [FireContext σ]

/-- Every emitter of a group is ticked once, one after the other. -/
inductive Emitter.EachTicked (owner : Vec2) : List Emitter → σ → List Emitter → σ → Prop where
  | nil (ctx : σ) : EachTicked owner [] ctx [] ctx
  | cons {e e' : Emitter} {rest rest' : List Emitter} {ctx ctx' ctx'' : σ} {running : Bool}
      (hfirst : e.tick owner ctx = (running, e', ctx'))
      (hrest : EachTicked owner rest ctx' rest' ctx'') :
      EachTicked owner (e :: rest) ctx (e' :: rest') ctx''

theorem Emitter.eachTicked_tickAll (es : List Emitter) (owner : Vec2) (ctx : σ) :
    EachTicked owner es ctx (tickAll es owner ctx).2.1 (tickAll es owner ctx).2.2 := by
  induction es generalizing ctx with
  | nil => exact .nil ctx
  | cons e rest ih => exact .cons rfl (ih (e.tick owner ctx).2.2)

end Groups

/-! ### One call of the gate -/

namespace FireGate

section Tick

variable {σ : Type} [FireContext σ]

/-- The step of the burst in progress, if there is one: whether it is still running afterwards. -/
def goOn (g : FireGate) (owner : Vec2) (ctx : σ) : Bool × List Emitter × σ :=
  if g.firing then Emitter.tickAll g.emitters owner ctx else (false, g.emitters, ctx)

theorem startBurst_eq (g : FireGate) (owner : Vec2) (ctx : σ) :
    g.startBurst owner ctx =
      if 0 ≤ g.frames then
        (⟨(Emitter.restartAll g.emitters owner ctx).2.1, true, g.frames⟩,
          (Emitter.restartAll g.emitters owner ctx).2.2)
      else (g, ctx) := by
  rw [startBurst]
  by_cases hover : g.frames < 0
  · rw [if_pos hover, if_neg (Int.not_le.mpr hover)]
  · rw [if_neg hover, if_pos (Int.not_lt.mp hover)]

/-- Behind the step of the burst in progress: all emitters start again if none of them is left
running and the countdown still holds. -/
def followUp (burst : Bool × List Emitter × σ) (frames : Int) (owner : Vec2) : FireGate × σ :=
  if burst.1 = false ∧ 0 ≤ frames then
    (⟨(Emitter.restartAll burst.2.1 owner burst.2.2).2.1, true, frames⟩,
      (Emitter.restartAll burst.2.1 owner burst.2.2).2.2)
  else (⟨burst.2.1, burst.1, frames⟩, burst.2.2)

theorem followUp_frames (burst : Bool × List Emitter × σ) (frames : Int) (owner : Vec2) :
    (followUp burst frames owner).1.frames = frames := by
  rw [followUp]
  split <;> rfl

/-- The burst in progress comes first, then the latch. -/
theorem tick_eq_followUp (g : FireGate) (owner : Vec2) (ctx : σ) :
    g.tick owner ctx = followUp (g.goOn owner ctx) (g.frames - 1) owner := by
  rw [tick, goOn]
  cases hfiring : g.firing with
  | false =>
    simp only [Bool.false_eq_true, if_false, startBurst_eq, followUp, true_and]
  | true =>
    rcases Emitter.tickAll g.emitters owner ctx with ⟨running, es, ctx'⟩
    cases running with
    | true => simp only [if_true, followUp, Bool.true_eq_false, false_and, if_false]
    | false =>
      simp only [if_true, Bool.false_eq_true, if_false, startBurst_eq, followUp, true_and]

end Tick

/-! ### Presses -/

/-- The countdown after some calls, in which the button was held or not. The newest one comes
first. -/
def countdown (length : Int) : List Bool → Int
  | [] => -1
  | true :: _ => length - 1
  | false :: before => countdown length before - 1

/-- **What the countdown says.** It is not below a number exactly if the button was held in one of
the last calls, of which there are as many less than the latch is long. -/
theorem le_countdown_iff (length : Int) {n : Int} (hn : 0 ≤ n) (presses : List Bool) :
    n ≤ countdown length presses ↔ true ∈ presses.take (length - n).toNat := by
  induction presses generalizing n with
  | nil =>
    rw [countdown, List.take_nil]
    exact iff_of_false (by omega) List.not_mem_nil
  | cons held before ih =>
    by_cases hlong : n < length
    · obtain ⟨left, hleft⟩ : ∃ left, (length - n).toNat = left + 1 :=
        ⟨(length - n).toNat - 1, by omega⟩
      rw [hleft, List.take_succ_cons, List.mem_cons]
      cases held with
      | true => exact iff_of_true (by rw [countdown]; omega) (.inl rfl)
      | false =>
        have hbefore := ih (n := n + 1) (by omega)
        have hless : (length - (n + 1)).toNat = left := by omega
        rw [hless] at hbefore
        rw [countdown, ← Int.add_le_iff_le_sub, hbefore]
        simp
    · have hnone : (length - n).toNat = 0 := by omega
      rw [hnone, List.take_zero]
      refine iff_of_false ?_ List.not_mem_nil
      cases held with
      | true =>
        rw [countdown]
        omega
      | false =>
        have hbefore := ih (n := n + 1) (by omega)
        have hless : (length - (n + 1)).toNat = 0 := by omega
        rw [hless, List.take_zero] at hbefore
        rw [countdown, ← Int.add_le_iff_le_sub, hbefore]
        exact List.not_mem_nil

end FireGate

namespace Player

variable {σ : Type} [FireContext σ] {settings : PlayerSettings}

/-! ### Calls -/

/-- What a player is called for in the course of a run. -/
inductive Call (σ : Type) where
  | fire (held : Bool) (ctx : σ)
  | beat
  | load (specs : List EmitterSpec)
  | move (direction : Vec2) (dt : Float32)
  | timers
  | bomb
  | grant (orb : Orb)
  | hit

/-- The player after a call. -/
def call (settings : PlayerSettings) (p : Player) : Call σ → Player
  | .fire held ctx => (p.handleFire held settings ctx).1
  | .beat => p.onBeat
  | .load specs => p.load specs
  | .move direction dt => p.move direction settings dt
  | .timers => p.tickTimers
  | .bomb => p.useBomb?.getD p
  | .grant orb => p.grant orb settings
  | .hit => (p.hit settings).2

/-- The player after some calls. -/
def after (settings : PlayerSettings) (p : Player) (calls : List (Call σ)) : Player :=
  calls.foldl (call settings) p

/-- The fire button, where it is asked about. -/
def Call.held? : Call σ → Option Bool
  | .fire held _ => some held
  | _ => none

/-- The fire button in each call for fire, the newest one first. -/
def presses (calls : List (Call σ)) : List Bool :=
  (calls.filterMap Call.held?).reverse

/-! ### The latch -/

/-- A call for fire, told by the burst in progress and by the countdown. -/
theorem handleFire_eq {p : Player} {before : List Bool}
    (h : p.gate.frames = FireGate.countdown settings.fireBufferFrames before) (held : Bool)
    (ctx : σ) :
    p.handleFire held settings ctx =
      ({ p with gate :=
          (FireGate.followUp (p.gate.goOn p.position ctx)
            (FireGate.countdown settings.fireBufferFrames (held :: before)) p.position).1 },
        (FireGate.followUp (p.gate.goOn p.position ctx)
          (FireGate.countdown settings.fireBufferFrames (held :: before)) p.position).2) := by
  cases held with
  | true =>
    rw [handleFire, if_pos rfl, FireGate.tick_eq_followUp]
    rfl
  | false =>
    rw [handleFire, if_neg Bool.false_ne_true, FireGate.tick_eq_followUp, h]
    rfl

/-- One call: the countdown follows the presses, and nothing else. -/
theorem frames_call {p : Player} {before : List Bool}
    (h : p.gate.frames = FireGate.countdown settings.fireBufferFrames before) (c : Call σ) :
    (p.call settings c).gate.frames =
      FireGate.countdown settings.fireBufferFrames (c.held?.toList ++ before) := by
  cases c with
  | fire held ctx =>
    rw [call, handleFire_eq h]
    exact FireGate.followUp_frames _ _ _
  | load specs =>
    rw [call, load]
    split <;> exact h
  | bomb =>
    rw [call, useBomb?]
    split <;> exact h
  | grant orb => cases orb <;> exact h
  | hit =>
    simp only [call, hit]
    split
    · exact h
    · split
      · exact h
      · split <;> exact h
  | _ => exact h

/-- **Any number of calls.** -/
theorem frames_after {p : Player} {before : List Bool}
    (h : p.gate.frames = FireGate.countdown settings.fireBufferFrames before)
    (calls : List (Call σ)) :
    (p.after settings calls).gate.frames =
      FireGate.countdown settings.fireBufferFrames (presses calls ++ before) := by
  induction calls generalizing p before with
  | nil => exact h
  | cons c calls ih =>
    have hlater := ih (frames_call h c)
    rw [after, List.foldl_cons]
    refine hlater.trans (congrArg _ ?_)
    cases hheld : c.held? with
    | none => simp [presses, hheld]
    | some held => simp [presses, hheld]

/-! ### Bursts -/

/-- The burst in progress, in one call: whether it is still running at the end of this step, with
the emitters and the surroundings as it leaves them. -/
inductive BurstStep (p : Player) (ctx : σ) : Bool → List Emitter → σ → Prop where
  | idle (h : p.isFiring = false) : BurstStep p ctx false p.emitters ctx
  | ticked {es : List Emitter} {ctx' : σ} (h : p.isFiring = true)
      (heach : Emitter.EachTicked p.position p.emitters ctx es ctx') :
      BurstStep p ctx (decide (true ∈ Emitter.answers (·.tick p.position) p.emitters ctx)) es ctx'

theorem burstStep_goOn (p : Player) (ctx : σ) :
    BurstStep p ctx (p.gate.goOn p.position ctx).1 (p.gate.goOn p.position ctx).2.1
      (p.gate.goOn p.position ctx).2.2 := by
  rw [FireGate.goOn]
  cases hfiring : p.gate.firing with
  | false => exact .idle hfiring
  | true =>
    have hrunning : decide (true ∈ Emitter.answers (·.tick p.position) p.emitters ctx) =
        (Emitter.tickAll p.emitters p.position ctx).1 :=
      Bool.eq_iff_iff.mpr (decide_eq_true_iff.trans (Emitter.running_iff _ p.emitters ctx).symm)
    have hticked := BurstStep.ticked hfiring (Emitter.eachTicked_tickAll p.emitters p.position ctx)
    rw [hrunning] at hticked
    exact hticked

/-- What ends a burst: that all emitters have fallen through, that others are loaded, or that the
last life is lost. -/
def EndsBurst (settings : PlayerSettings) (p : Player) : Call σ → Prop
  | .fire _ ctx => true ∉ Emitter.answers (·.tick p.position) p.emitters ctx
  | .load _ => p.loadedPower ≠ some p.power
  | .hit => (p.hit settings).1 = .dead
  | _ => False

/-- None of some calls ends a burst. -/
def GoesOn (settings : PlayerSettings) : Player → List (Call σ) → Prop
  | _, [] => True
  | p, c :: calls => ¬ EndsBurst settings p c ∧ GoesOn settings (p.call settings c) calls

theorem isFiring_call {p : Player} (h : p.isFiring = true) {c : Call σ}
    (hc : ¬ EndsBurst settings p c) : (p.call settings c).isFiring = true := by
  cases c with
  | fire held ctx =>
    have hrunning : (Emitter.tickAll p.emitters p.position ctx).1 = true :=
      (Emitter.running_iff _ p.emitters ctx).mpr (Decidable.not_not.mp hc)
    have hgoOn : (p.gate.goOn p.position ctx).1 = true :=
      (congrArg Prod.fst (if_pos h)).trans hrunning
    have hticked : ∀ frames,
        (FireGate.tick { p.gate with frames := frames } p.position ctx).1.firing = true := by
      intro frames
      have hsame : FireGate.goOn { p.gate with frames := frames } p.position ctx =
          p.gate.goOn p.position ctx := rfl
      rw [FireGate.tick_eq_followUp, hsame, FireGate.followUp,
        if_neg fun hover => Bool.false_ne_true (hover.1.symm.trans hgoOn)]
      exact hgoOn
    cases held with
    | true => exact hticked _
    | false => exact hticked _
  | load specs =>
    rw [call, load, if_pos (Decidable.not_not.mp hc)]
    exact h
  | bomb =>
    rw [call, useBomb?]
    split <;> exact h
  | grant orb => cases orb <;> exact h
  | hit =>
    have hlives : (p.hit settings).1 ≠ .dead := hc
    simp only [call, hit] at hlives ⊢
    split
    · exact h
    · next hopen =>
      rw [if_neg hopen] at hlives
      split
      · exact h
      · next hbare =>
        rw [if_neg hbare] at hlives
        split
        · next hdead => exact absurd (by rw [if_pos hdead]) hlives
        · exact h
  | _ => exact h

theorem isFiring_after {p : Player} (h : p.isFiring = true) {calls : List (Call σ)}
    (hcalls : GoesOn settings p calls) : (p.after settings calls).isFiring = true := by
  induction calls generalizing p with
  | nil => exact h
  | cons c calls ih => exact ih (isFiring_call h hcalls.1) hcalls.2

/-- **The fire latch lasts as configured.** Take any player since a reset, whatever has happened
since, and any call for fire. The burst in progress is served first: each emitter is ticked once,
whatever the button does, and the burst goes on as long as any of them is running. The emitters are
started again exactly if no burst is left running and the button was held in this call, or in one of
those before it that the latch reaches back to; a latch of no calls reaches back to none. No other
call ends a burst, unless it exchanges the emitters or takes the last life. -/
theorem fire_latch_lasts_as_configured (slot : Player) (settings : PlayerSettings)
    (history : List (Call σ)) :
    let p := (slot.reset settings).after settings history
    let latch := settings.fireBufferFrames
    (∀ held (ctx : σ), ∃ running es ctx', BurstStep p ctx running es ctx' ∧
      p.handleFire held settings ctx =
        if running = false ∧ true ∈ (held :: presses history).take latch.toNat then
          ({ p with gate := ⟨(Emitter.restartAll es p.position ctx').2.1, true,
              FireGate.countdown latch (held :: presses history)⟩ },
            (Emitter.restartAll es p.position ctx').2.2)
        else
          ({ p with gate := ⟨es, running, FireGate.countdown latch (held :: presses history)⟩ },
            ctx')) ∧
      ∀ later : List (Call σ), p.isFiring = true → GoesOn settings p later →
        (p.after settings later).isFiring = true := by
  intro p latch
  refine ⟨fun held ctx => ?_, fun later h hlater => isFiring_after h hlater⟩
  have hframes : p.gate.frames = FireGate.countdown latch (presses history) := by
    have hreset : (slot.reset settings).gate.frames =
        FireGate.countdown settings.fireBufferFrames [] := rfl
    have hafter := frames_after hreset history
    rwa [List.append_nil] at hafter
  have hlatched : 0 ≤ FireGate.countdown latch (held :: presses history) ↔
      true ∈ (held :: presses history).take latch.toNat := by
    have hreach := FireGate.le_countdown_iff latch (Int.le_refl 0) (held :: presses history)
    rwa [Int.sub_zero] at hreach
  refine ⟨_, _, _, p.burstStep_goOn ctx, (handleFire_eq hframes held ctx).trans ?_⟩
  rw [FireGate.followUp, ← if_congr (and_congr_right fun _ => hlatched) rfl rfl]
  split <;> rfl

/-- A latch of two calls. -/
def shortLatch : PlayerSettings := { fireBufferFrames := 2 }

/-- A burst of three calls is loaded, and the button is tapped once. -/
def tap : List (Call FireControl) :=
  [.load [⟨Vec2.zero, ⟨0⟩, 1, ⟨[.fire, .waitFrames 2]⟩⟩], .fire true .emptySky]

/-- Two calls more, with a beat between them. -/
def released : List (Call FireControl) :=
  [.fire false .emptySky, .beat, .fire false .emptySky]

/-- The burst outlasts the latch: it is still in progress when the button has been up for as long as
the latch. The call after that ends it, and nothing follows. -/
theorem fire_latch_lasts_as_configured_of_tap :
    let p := ((initial shortLatch 4 8).reset shortLatch).after shortLatch tap
    let q := ((initial shortLatch 4 8).reset shortLatch).after shortLatch (tap ++ released)
    (p.isFiring = true ∧ GoesOn shortLatch p released) ∧
      (p.after shortLatch released).isFiring = true ∧
        (∃ running es ctx', BurstStep q FireControl.emptySky running es ctx' ∧
          q.handleFire false shortLatch .emptySky =
            ({ q with gate := ⟨es, running, -2⟩ }, ctx')) ∧
          (q.handleFire false shortLatch FireControl.emptySky).1.isFiring = false := by
  intro p q
  have hfiring : p.isFiring = true := rfl
  have hreleased : GoesOn shortLatch p released :=
    ⟨fun hover => hover (.head _), fun hbeat => hbeat, fun hover => hover (.head _), trivial⟩
  have hlatch := fire_latch_lasts_as_configured (initial shortLatch 4 8) shortLatch tap
  have hover := fire_latch_lasts_as_configured (initial shortLatch 4 8) shortLatch (tap ++ released)
  refine ⟨⟨hfiring, hreleased⟩, hlatch.2 released hfiring hreleased, ?_, rfl⟩
  obtain ⟨running, es, ctx', hstep, hcall⟩ := hover.1 false FireControl.emptySky
  have hup : ¬ (running = false ∧ true ∈ ([false, false, false, true] : List Bool).take 2) :=
    fun hheld => absurd hheld.2 (by decide)
  exact ⟨running, es, ctx', hstep, hcall.trans (if_neg hup)⟩

end Player

end BulletHell
