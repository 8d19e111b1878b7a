import BulletHell.Actor.Powerup
import BulletHell.Proofs.Geometry.Distance
import Mathlib.Data.List.DropRight

/-!
# The charge of a powerup

A player who stays near a powerup for long enough collects all of its orbs. The powerup has a single
timer for that, which says how long the player still has to stay. It is set back where the player
is missed, it is left as it is when the powerup falls off, and in between the powerup moves on. So
to read the timer as a stay, one has to know where the powerup was in each tick.

That is known beforehand: a powerup falls along its lane, and its height depends on nothing but the
time that has passed. The ticks can thus be told apart into those with the player near and those
without before anything is run, and a stay is a matter of the ticks alone: it is made of the latest
ones, back to the last one in which the player was missed. The timer is what is left of the full
time after them.

Seconds are taken off one tick at a time, as sums of them are rounded.

## Main definitions

* `Powerup.Call`, `Powerup.after`, `Powerup.outcomes` — some ticks in a row
* `PowerupSettings.timeLeft`, `Powerup.visit`, `Powerup.Visit.near` — where the powerup is in a
  tick, and whether the player is near then
* `Powerup.stay`, `PowerupSettings.chargeAfter` — the current stay, and what is left to be stayed
* `Powerup.Lingers` — ticks in which a powerup neither falls off nor gives all of its orbs

## Main results

* `Powerup.Charged.call` — a tick that goes on falling
* `Powerup.charged_after` — any number of them
* `Powerup.only_an_unbroken_stay_collects_all`
-/

namespace BulletHell

namespace Powerup

/-! ### Ticks in a row -/

/-- What a powerup is told in a tick. -/
structure Call where
  player : Option Vec2
  dt : Float32

/-- What comes of a tick. -/
def outcome (p : Powerup) (s : PowerupSettings) (c : Call) : PowerupOutcome :=
  (p.tick c.player s c.dt).1

/-- The powerup after a tick. -/
def call (p : Powerup) (s : PowerupSettings) (c : Call) : Powerup :=
  (p.tick c.player s c.dt).2

/-- The powerup after some ticks. -/
def after (p : Powerup) (s : PowerupSettings) (calls : List Call) : Powerup :=
  calls.foldl (fun p c => p.call s c) p

/-- What comes of each of some ticks. -/
def outcomes (p : Powerup) (s : PowerupSettings) : List Call → List PowerupOutcome
  | [] => []
  | c :: calls => p.outcome s c :: outcomes (p.call s c) s calls

variable {p : Powerup} {s : PowerupSettings}

theorem after_snoc (calls : List Call) (c : Call) :
    p.after s (calls ++ [c]) = (p.after s calls).call s c :=
  List.foldl_concat _ p c calls

theorem outcomes_snoc (calls : List Call) (c : Call) :
    p.outcomes s (calls ++ [c]) = p.outcomes s calls ++ [(p.after s calls).outcome s c] := by
  induction calls generalizing p with
  | nil => rfl
  | cons first calls ih => exact congrArg (p.outcome s first :: ·) ih

end Powerup

/-! ### Places and stays -/

namespace PowerupSettings

/-- The seconds left to fall after some ticks. -/
def timeLeft (s : PowerupSettings) (calls : List Powerup.Call) : Float32 :=
  calls.foldl (fun left c => left - c.dt) s.fallDuration

theorem timeLeft_snoc (s : PowerupSettings) (calls : List Powerup.Call) (c : Powerup.Call) :
    s.timeLeft (calls ++ [c]) = s.timeLeft calls - c.dt :=
  List.foldl_concat _ s.fallDuration c calls

/-- The height with some seconds left to fall. -/
def heightAt (s : PowerupSettings) (left : Float32) : Float32 :=
  -Playfield.entryHeight +
    2 * Playfield.entryHeight * s.fallCurve.evaluate (left / s.fallDuration)

/-- The seconds that are left to be stayed after a stay of some ticks. -/
def chargeAfter (s : PowerupSettings) (stay : List Float32) : Float32 :=
  stay.foldl (· - ·) s.tripleDuration

theorem chargeAfter_snoc (s : PowerupSettings) (stay : List Float32) (dt : Float32) :
    s.chargeAfter (stay ++ [dt]) = s.chargeAfter stay - dt :=
  List.foldl_concat _ s.tripleDuration dt stay

end PowerupSettings

namespace Powerup

/-- A tick, and where the powerup is in it. -/
structure Visit where
  call : Call
  place : Vec2

/-- The player is there, and within the outer radius. -/
def Visit.near (s : PowerupSettings) (v : Visit) : Bool :=
  v.call.player.any fun player =>
    player.distanceSquared v.place < s.outerRadius * s.outerRadius

/-- A tick of a powerup that has come down a lane for some ticks. -/
def visit (s : PowerupSettings) (lane : Float32) (calls : List Call) (c : Call) : Visit :=
  ⟨c, ⟨lane, s.heightAt (s.timeLeft (calls ++ [c]))⟩⟩

/-- Some ticks, each with the place of the powerup. -/
def visits (s : PowerupSettings) (lane : Float32) (calls : List Call) : List Visit :=
  calls.zipIdx.map fun ci => visit s lane (calls.take ci.2) ci.1

/-- The current stay: the seconds of the latest ticks, as far back as the player was near. -/
def stay (s : PowerupSettings) (lane : Float32) (calls : List Call) : List Float32 :=
  ((visits s lane calls).rtakeWhile (Visit.near s)).map (·.call.dt)

theorem visits_snoc (s : PowerupSettings) (lane : Float32) (calls : List Call) (c : Call) :
    visits s lane (calls ++ [c]) = visits s lane calls ++ [visit s lane calls c] := by
  rw [visits, visits, List.zipIdx_append, List.map_append, List.zipIdx_singleton,
    List.map_singleton]
  congr 1
  · refine List.map_congr_left fun ci hci => ?_
    have hlt := List.snd_lt_of_mem_zipIdx hci
    rw [List.take_append_of_le_length (by omega)]
  · dsimp only
    rw [Nat.zero_add, List.take_left]

/-- A tick near the powerup makes the stay longer; any other one ends it. -/
theorem stay_snoc (s : PowerupSettings) (lane : Float32) (calls : List Call) (c : Call) :
    stay s lane (calls ++ [c]) =
      if (visit s lane calls c).near s then stay s lane calls ++ [c.dt] else [] := by
  rw [stay, visits_snoc, List.rtakeWhile_concat]
  split
  · rw [List.map_append]
    rfl
  · rfl

/-- The charge from one tick to the next. -/
theorem chargeAfter_stay_snoc (s : PowerupSettings) (lane : Float32) (calls : List Call)
    (c : Call) :
    s.chargeAfter (stay s lane (calls ++ [c])) =
      if (visit s lane calls c).near s then s.chargeAfter (stay s lane calls) - c.dt
      else s.tripleDuration := by
  rw [stay_snoc]
  split
  · exact s.chargeAfter_snoc _ c.dt
  · rfl

/-! ### One tick -/

section Tick

variable (p : Powerup) (s : PowerupSettings) (c : Call)

/-- The powerup in a tick, before anybody looks for the player. -/
def fallen (dt : Float32) : Powerup :=
  { p with fallTimer := p.fallTimer - dt }.move s dt

/-- The player is near in a tick. -/
def nearIn : Bool :=
  (⟨c, (p.fallen s c.dt).position⟩ : Visit).near s

/-- The powerup after a tick, unless it has fallen off. -/
def settled : Powerup :=
  { p.fallen s c.dt with
    tripleTimer := if p.nearIn s c then p.tripleTimer - c.dt else s.tripleDuration }

/-- All that can come of a tick. Somebody who is not there touches nothing. -/
theorem tick_eq :
    p.tick c.player s c.dt =
      if p.fallTimer - c.dt ≤ 0 then (.expired, { p with fallTimer := p.fallTimer - c.dt })
      else
        (if p.nearIn s c ∧ p.tripleTimer - c.dt ≤ 0 then .collectedAll p.hasExtend
          else c.player.elim .falling ((p.settled s c).touched s),
        p.settled s c) := by
  rw [tick]
  dsimp only
  by_cases hover : p.fallTimer - c.dt ≤ 0
  · rw [if_pos hover, if_pos hover]
  rw [if_neg hover, if_neg hover]
  rcases c with ⟨_ | player, dt⟩
  · rfl
  by_cases hnear : p.nearIn s ⟨some player, dt⟩ = true
  · have hwithin := of_decide_eq_true hnear
    refine (if_pos hwithin).trans ?_
    have hsettled : p.settled s ⟨some player, dt⟩ =
        { p.fallen s dt with tripleTimer := p.tripleTimer - dt } := by
      rw [settled, if_pos hnear]
    rw [hsettled]
    by_cases hfull : p.tripleTimer - dt ≤ 0
    · refine (if_pos hfull).trans ?_
      rw [if_pos (And.intro hnear hfull)]
      rfl
    · refine (if_neg hfull).trans ?_
      rw [if_neg fun h => hfull h.2]
      rfl
  · have hbeyond := of_decide_eq_false ((Bool.not_eq_true _).mp hnear)
    have hsettled : p.settled s ⟨some player, dt⟩ = (p.fallen s dt).discharge s := by
      rw [settled, if_neg hnear]
      rfl
    refine (if_neg hbeyond).trans ?_
    rw [hsettled, if_neg fun h => hnear h.1]
    rfl

/-- Touching an orb gives a single one. -/
theorem touched_ne_collectedAll (player : Vec2) (extend : Bool) :
    p.touched s player ≠ .collectedAll extend := by
  rw [touched]
  split <;> exact PowerupOutcome.noConfusion

/-- Orbs of no size are not touched, wherever they are. -/
theorem touched_of_no_size (hsize : s.orbRadius * s.orbRadius = 0) (player : Vec2) :
    p.touched s player = .falling := by
  have hnone : ((p.orbs s).find? fun orb =>
      orb.2.distanceSquared player < s.orbRadius * s.orbRadius) = none := by
    rw [List.find?_eq_none]
    intro orb _ hreach
    rw [hsize] at hreach
    exact Vec2.not_distanceSquared_lt_zero _ _ (of_decide_eq_true hreach)
  rw [touched, hnone]

variable {p s c}

theorem outcome_of_over (h : p.fallTimer - c.dt ≤ 0) : p.outcome s c = .expired := by
  rw [outcome, tick_eq, if_pos h]

/-- A powerup that does not fall off is told whether the player is near. -/
theorem call_of_ne_expired (h : p.outcome s c ≠ .expired) : p.call s c = p.settled s c := by
  rw [call, tick_eq, if_neg fun hover => h (outcome_of_over hover)]

/-- All orbs at once are for those who are near and have stayed for long enough. -/
theorem outcome_eq_collectedAll_iff (extend : Bool) :
    p.outcome s c = .collectedAll extend ↔
      extend = p.hasExtend ∧ ¬ p.fallTimer - c.dt ≤ 0 ∧ p.nearIn s c = true ∧
        p.tripleTimer - c.dt ≤ 0 := by
  rw [outcome, tick_eq]
  by_cases hover : p.fallTimer - c.dt ≤ 0
  · rw [if_pos hover]
    exact iff_of_false PowerupOutcome.noConfusion fun h => h.2.1 hover
  rw [if_neg hover]
  dsimp only
  by_cases hall : p.nearIn s c = true ∧ p.tripleTimer - c.dt ≤ 0
  · rw [if_pos hall, PowerupOutcome.collectedAll.injEq, eq_comm]
    exact (and_iff_left ⟨hover, hall⟩).symm
  · rw [if_neg hall]
    refine iff_of_false ?_ fun h => hall h.2.2
    cases c.player with
    | none => exact PowerupOutcome.noConfusion
    | some player => exact touched_ne_collectedAll _ s player extend

/-- Where orbs have no size, a powerup goes on falling unless it falls off, or all orbs are
given. -/
theorem outcome_of_no_size (hsize : s.orbRadius * s.orbRadius = 0)
    (hleft : ¬ p.fallTimer - c.dt ≤ 0)
    (hcharge : ¬ (p.nearIn s c = true ∧ p.tripleTimer - c.dt ≤ 0)) : p.outcome s c = .falling := by
  rw [outcome, tick_eq, if_neg hleft, if_neg hcharge]
  cases c.player with
  | none => rfl
  | some player => exact touched_of_no_size _ s hsize player

end Tick

/-! ### Any number of ticks -/

/-- In none of some ticks the powerup falls off, or has been stayed with for long enough. -/
def Lingers (s : PowerupSettings) : Powerup → List Call → Prop
  | _, [] => True
  | p, c :: calls =>
    (¬ p.fallTimer - c.dt ≤ 0 ∧ ¬ (p.nearIn s c = true ∧ p.tripleTimer - c.dt ≤ 0)) ∧
      Lingers s (p.call s c) calls

instance Lingers.decidable (s : PowerupSettings) :
    (p : Powerup) → (calls : List Call) → Decidable (Lingers s p calls)
  | _, [] => inferInstanceAs (Decidable True)
  | p, c :: calls =>
    have := Lingers.decidable s (p.call s c) calls
    inferInstanceAs (Decidable (_ ∧ _))

/-- What comes of it where orbs have no size. -/
theorem Lingers.outcomes {p : Powerup} {s : PowerupSettings} {calls : List Call}
    (h : Lingers s p calls) (hsize : s.orbRadius * s.orbRadius = 0) :
    ∀ o ∈ p.outcomes s calls, o = .falling := by
  induction calls generalizing p with
  | nil => exact List.forall_mem_nil _
  | cons c calls ih =>
    obtain ⟨⟨hleft, hcharge⟩, hlater⟩ := h
    exact List.forall_mem_cons.mpr ⟨outcome_of_no_size hsize hleft hcharge, ih hlater⟩

/-- What is known of a powerup that has come down a lane for some ticks. -/
structure Charged (s : PowerupSettings) (lane : Float32) (extend : Bool) (calls : List Call)
    (p : Powerup) : Prop where
  column : p.position.x = lane
  left : p.fallTimer = s.timeLeft calls
  charge : p.tripleTimer = s.chargeAfter (stay s lane calls)
  kind : p.hasExtend = extend

variable {s : PowerupSettings} {lane : Float32} {extend : Bool} {calls : List Call} {p : Powerup}
  {c : Call}

theorem charged_entering (s : PowerupSettings) (lane : Float32) (extend : Bool) :
    Charged s lane extend [] (entering lane extend s) :=
  ⟨rfl, rfl, rfl, rfl⟩

namespace Charged

theorem left_call (h : Charged s lane extend calls p) (c : Call) :
    p.fallTimer - c.dt = s.timeLeft (calls ++ [c]) := by
  rw [s.timeLeft_snoc, h.left]

/-- Where a powerup is in a tick does not depend on its charge. -/
theorem nearIn (h : Charged s lane extend calls p) (c : Call) :
    p.nearIn s c = (visit s lane calls c).near s := by
  rw [visit, ← h.left_call, ← h.column]
  rfl

theorem position_call (h : Charged s lane extend calls p) (hstays : p.outcome s c ≠ .expired) :
    (p.call s c).position = (visit s lane calls c).place := by
  rw [call_of_ne_expired hstays, visit, ← h.left_call, ← h.column]
  rfl

/-- **A tick after which the powerup goes on falling.** -/
theorem call (h : Charged s lane extend calls p) (hfalling : p.outcome s c = .falling) :
    Charged s lane extend (calls ++ [c]) (p.call s c) := by
  have hstays : p.outcome s c ≠ .expired := by
    rw [hfalling]
    exact PowerupOutcome.noConfusion
  rw [call_of_ne_expired hstays]
  refine ⟨h.column, h.left_call c, ?_, h.kind⟩
  rw [chargeAfter_stay_snoc, ← h.nearIn, ← h.charge]
  rfl

end Charged

/-- **Any number of ticks** after which the powerup goes on falling. -/
theorem charged_after (s : PowerupSettings) (lane : Float32) (extend : Bool) (calls : List Call)
    (hfalling : ∀ o ∈ (entering lane extend s).outcomes s calls, o = .falling) :
    Charged s lane extend calls ((entering lane extend s).after s calls) := by
  induction calls using List.reverseRecOn with
  | nil => exact charged_entering s lane extend
  | append_singleton calls c ih =>
    rw [outcomes_snoc, List.forall_mem_append, List.forall_mem_singleton] at hfalling
    rw [after_snoc]
    exact (ih hfalling.1).call hfalling.2

/-- **Only an unbroken stay grants all three orbs.** As long as a powerup goes on falling, its timer
is the full time without the seconds of the current stay. The next tick grants all three orbs
exactly if the powerup has not fallen off by then, the player is near where it is in this tick, and
with its seconds the stay is long enough. And a tick without the player nearby brings the timer back
to the full time, however long the stay was. -/
theorem only_an_unbroken_stay_collects_all (s : PowerupSettings) (lane : Float32) (extend : Bool)
    (calls : List Call)
    (hfalling : ∀ o ∈ (entering lane extend s).outcomes s calls, o = .falling) :
    ((entering lane extend s).after s calls).tripleTimer = s.chargeAfter (stay s lane calls) ∧
    (∀ c all, ((entering lane extend s).after s calls).outcome s c = .collectedAll all ↔
      all = extend ∧ ¬ s.timeLeft (calls ++ [c]) ≤ 0 ∧ (visit s lane calls c).near s = true ∧
        s.chargeAfter (stay s lane calls) - c.dt ≤ 0) ∧
    (∀ c, ((entering lane extend s).after s calls).outcome s c ≠ .expired →
      ((entering lane extend s).after s (calls ++ [c])).position =
        (visit s lane calls c).place) ∧
    ∀ c, ((entering lane extend s).after s calls).outcome s c = .falling →
      c.player = none ∨ (visit s lane calls c).near s = false →
        ((entering lane extend s).after s (calls ++ [c])).tripleTimer = s.tripleDuration := by
  have hcharged := charged_after s lane extend calls hfalling
  refine ⟨hcharged.charge, fun c all => ?_, fun c hstays => ?_, fun c hnext haway => ?_⟩
  · rw [outcome_eq_collectedAll_iff, hcharged.kind, hcharged.left_call, hcharged.nearIn,
      hcharged.charge]
  · rw [after_snoc]
    exact hcharged.position_call hstays
  · have hmissed : (visit s lane calls c).near s = false := by
      rcases haway with hnobody | hbeyond
      · rw [Visit.near, visit, hnobody, Option.any_none]
      · exact hbeyond
    rw [after_snoc, (hcharged.call hnext).charge, chargeAfter_stay_snoc, hmissed]
    rfl

/-- Orbs of no size at some distance. Half a second nearby is all that is asked for. -/
def tinyOrbs : PowerupSettings :=
  { tripleDuration := 0.5, orbRadius := 0, orbDistance := 2 }

/-- An eighth of a second near the place where the powerup comes in. -/
def nearby : Call := ⟨some ⟨0, 4⟩, 0.125⟩

/-- A stay of three ticks, a tick in which nobody is there, and a stay of three ticks more. -/
def brokenStay : List Call :=
  [nearby, nearby, nearby, ⟨none, 0.125⟩, nearby, nearby, nearby]

/-- After three ticks nearby a fourth one is enough. After the broken stay the first three do not
count any more: the fourth one of the second stay is enough again, and if nobody is there the timer
is full. -/
theorem only_an_unbroken_stay_collects_all_of_brokenStay :
    let first := (entering 0 true tinyOrbs).after tinyOrbs (brokenStay.take 3)
    let p := (entering 0 true tinyOrbs).after tinyOrbs brokenStay
    (∀ o ∈ (entering 0 true tinyOrbs).outcomes tinyOrbs brokenStay, o = .falling) ∧
      first.outcome tinyOrbs nearby = .collectedAll true ∧
      p.tripleTimer = 0.125 ∧ p.outcome tinyOrbs nearby = .collectedAll true ∧
      ((entering 0 true tinyOrbs).after tinyOrbs (brokenStay ++ [⟨none, 0.125⟩])).tripleTimer =
        0.5 := by
  intro first p
  have hsize : tinyOrbs.orbRadius * tinyOrbs.orbRadius = 0 := by decide +kernel
  have hfirst : Lingers tinyOrbs (entering 0 true tinyOrbs) (brokenStay.take 3) := by
    decide +kernel
  have hlingers : Lingers tinyOrbs (entering 0 true tinyOrbs) brokenStay := by decide +kernel
  have hfalling := hlingers.outcomes hsize
  obtain ⟨-, hsoon, -⟩ :=
    only_an_unbroken_stay_collects_all tinyOrbs 0 true _ (hfirst.outcomes hsize)
  obtain ⟨hcharge, hall, -, hmiss⟩ :=
    only_an_unbroken_stay_collects_all tinyOrbs 0 true brokenStay hfalling
  refine ⟨hfalling, (hsoon nearby true).mpr (by decide +kernel), hcharge.trans (by decide +kernel),
    (hall nearby true).mpr (by decide +kernel), hmiss ⟨none, 0.125⟩ ?_ (.inl rfl)⟩
  decide +kernel

end Powerup

end BulletHell
