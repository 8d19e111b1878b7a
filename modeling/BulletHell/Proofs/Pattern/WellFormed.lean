import BulletHell.Proofs.Pattern.Firing
import BulletHell.Proofs.Pattern.Kept
import BulletHell.Proofs.Pattern.Mirroring

/-!
# Emitters stay well formed

The interpreter looks up its instructions without a thought of where its program ends, jumps to
whatever a loop frame names, and adds up angles. That all of this goes well is not a matter of the
program: nobody may have checked it, and it may be exchanged in the middle of a loop. It is an
invariant of the emitter, which every cycle keeps.

## Why places may be one too far

The body of a loop begins behind all loop starts that follow directly, and if the program ends with
them there is no instruction at that place. So a frame may begin at the end of its program, and a
jump may lead there. The invariant is therefore stated with `≤`, for places and frames alike; and
only where an instruction was found is the counter known to be in front of the end, with room for
the step behind it.

## What is asked of the surroundings

Nothing, as far as the state is concerned: the angle of a shot is folded whatever it was added up
from. Only for the sums themselves to fit into 32 bits must the target be looked for within half a
turn, and random angles keep to their spread.

## Main definitions

* `Emitter.WellFormed` — no place is behind the end, no loop is too deep, and angles are folded
* `FireContext.Reliable` — surroundings that answer in the range that they promise

## Main results

* `Emitter.WellFormed.execute`, `Emitter.kept_wellFormed` — one instruction, and one cycle
* `Emitter.wellFormed_after` — any calls
* `Emitter.Folded.natAbs_addends_le` — the sums behind a shot
* `Emitter.stays_wellFormed`
-/

namespace BulletHell

/-- Surroundings that answer in the range that they promise: no target is more than half a turn
away, also once a random angle was drawn, and no random angle exceeds its spread. -/
structure FireContext.Reliable {σ : Type} [FireContext σ] (ctx : σ) : Prop where
  angle : ∀ origin, (FireContext.angleToTarget ctx origin).natAbs ≤ 180
  draw : ∀ spread, (FireContext.randomSpread ctx spread).1.natAbs ≤ spread.natAbs
  angle_drawn : ∀ spread origin,
    (FireContext.angleToTarget (FireContext.randomSpread ctx spread).2 origin).natAbs ≤ 180

/-- Random angles at the end of the spread are still in it. -/
theorem Lookout.reliable {c : Lookout} (h : c.angle.natAbs ≤ 180) : FireContext.Reliable c where
  angle _ := h
  draw _ := Nat.le_refl _
  angle_drawn _ _ := h

namespace Emitter

/-- No place lies behind the end of the program, no more loops are open than there is room for, and
all angles are folded. -/
structure WellFormed (room : Nat) (e : Emitter) : Prop where
  counter : e.counter ≤ e.program.length
  starts : ∀ frame ∈ e.repeats, frame.start ≤ e.program.length
  maxDepth : e.maxDepth = room
  depth : e.repeats.length ≤ room
  folded : e.Folded

variable {room : Nat} {e : Emitter}

theorem wellFormed_idle (room : Nat) : (idle room).WellFormed room where
  counter := Nat.le_refl 0
  starts _ hframe := absurd hframe List.not_mem_nil
  maxDepth := rfl
  depth := Nat.zero_le room
  folded := folded_rewind (idle room)

theorem wellFormed_rewind (h : e.maxDepth = room) : e.rewind.WellFormed room where
  counter := Nat.zero_le _
  starts _ hframe := absurd hframe List.not_mem_nil
  maxDepth := h
  depth := Nat.zero_le room
  folded := folded_rewind e

namespace WellFormed

/-- Going elsewhere, with other loops open. -/
theorem goTo (h : e.WellFormed room) {repeats : List RepeatFrame} {counter : Nat}
    (hcounter : counter ≤ e.program.length)
    (hstarts : ∀ frame ∈ repeats, frame.start ≤ e.program.length)
    (hdepth : repeats.length ≤ room) :
    WellFormed room { e with repeats := repeats, counter := counter } :=
  ⟨hcounter, hstarts, h.maxDepth, hdepth, h.folded.offset, h.folded.last⟩

/-! ### Loop brackets -/

/-- A loop start, even if nothing but loop starts follows it. -/
theorem repeatStart (h : e.WellFormed room) (hinside : e.counter < e.program.length)
    (times : Nat) : (e.repeatStart times).WellFormed room := by
  rw [Emitter.repeatStart]
  have hfollowing : ((e.program.instructions.drop (e.counter + 1)).takeWhile
      (·.isRepeatStart)).length ≤ e.program.length - (e.counter + 1) :=
    Nat.le_trans (List.takeWhile_sublist _).length_le (Nat.le_of_eq List.length_drop)
  split
  · next hroom =>
    refine h.goTo hinside (List.forall_mem_cons.mpr ⟨?_, h.starts⟩) ?_
    · dsimp only
      omega
    · exact h.maxDepth ▸ hroom
  · exact h.goTo hinside h.starts h.depth

/-- A loop end: it goes back to the start of the innermost loop, or closes it, or it is skipped. -/
theorem repeatEnd (h : e.WellFormed room) (hinside : e.counter < e.program.length) :
    e.repeatEnd.WellFormed room := by
  have hskipped : e.advance.WellFormed room := h.goTo hinside h.starts h.depth
  have hstarts := h.starts
  have hdepth := h.depth
  cases hframes : e.repeats with
  | nil =>
    rw [repeatEnd_nil hframes]
    exact hskipped
  | cons frame frames =>
    rw [hframes, List.forall_mem_cons] at hstarts
    rw [hframes] at hdepth
    rcases stop_cases frame e.counter with hown | ⟨stop, hstop, hother⟩
    · rw [repeatEnd_eq hframes hown]
      split
      · exact h.goTo hstarts.1 (List.forall_mem_cons.mpr hstarts) hdepth
      · exact h.goTo hinside hstarts.2 (Nat.le_of_succ_le hdepth)
    · rw [repeatEnd_of_ne hframes hstop hother]
      exact hskipped

/-- The end of the program, likewise. -/
theorem endOfProgram (h : e.WellFormed room) : e.endOfProgram.2.WellFormed room := by
  have hstarts := h.starts
  have hdepth := h.depth
  cases hframes : e.repeats with
  | nil =>
    rw [endOfProgram_nil hframes]
    exact h
  | cons frame frames =>
    rw [hframes, List.forall_mem_cons] at hstarts
    rw [hframes] at hdepth
    rw [endOfProgram_eq hframes]
    split
    · exact h.goTo hstarts.1 (List.forall_mem_cons.mpr hstarts) hdepth
    · exact h.goTo h.counter hstarts.2 (Nat.le_of_succ_le hdepth)

/-! ### Cycles and calls -/

variable {σ : Type} [FireContext σ]

/-- **One instruction.** All but the brackets step to the place behind it. -/
theorem execute (h : e.WellFormed room) (hinside : e.counter < e.program.length) (origin : Vec2)
    (ctx : σ) (op : Instruction) : (e.execute origin ctx op).2.1.WellFormed room := by
  have hfolded := h.folded.execute origin ctx op
  cases op with
  | repeatStart times => exact h.repeatStart hinside times
  | repeatEnd => exact h.repeatEnd hinside
  | setMode mode =>
    obtain ⟨offset, heq⟩ := e.exists_setMode_eq mode
    rw [Emitter.execute, heq] at hfolded ⊢
    exact ⟨hinside, h.starts, h.maxDepth, h.depth, hfolded⟩
  | _ => exact ⟨hinside, h.starts, h.maxDepth, h.depth, hfolded⟩

end WellFormed

section Sessions

variable {σ : Type} [FireContext σ]

/-- **One cycle.** -/
theorem kept_wellFormed (room : Nat) : Kept σ (WellFormed room) where
  cycle := by
    intro e h origin ctx
    cases hnext : e.next? with
    | none =>
      rw [cycle_of_next?_eq_none hnext]
      exact h.endOfProgram
    | some op =>
      rw [cycle_of_next? hnext]
      exact h.execute (List.getElem?_eq_some_iff.mp hnext).1 origin ctx op
  waits h _ _ := ⟨h.counter, h.starts, h.maxDepth, h.depth, h.folded.offset, h.folded.last⟩
  rewind h := wellFormed_rewind h.maxDepth

/-- **Any calls**, from an emitter without a program on. -/
theorem wellFormed_after (room : Nat) (calls : List (Call σ)) :
    ((idle room).after calls).WellFormed room :=
  (kept_wellFormed room).after (fun h _ _ => wellFormed_rewind h.maxDepth) (wellFormed_idle room)
    calls

/-- What has fired is the emitter as it was when a cycle of the call began. -/
theorem shooter_mem_cycles {c : Call σ} {x : Firing σ} (hx : x ∈ e.firings c) :
    x.shooter ∈ (e.entry c).cycles := by
  cases c with
  | load spec mirrored => cases hx
  | beat => cases hx
  | tick owner ctx =>
    obtain ⟨shooter, hshooter, rfl⟩ := List.mem_map.mp hx
    exact List.mem_of_mem_filter hshooter
  | restart owner ctx =>
    obtain ⟨shooter, hshooter, rfl⟩ := List.mem_map.mp hx
    exact List.mem_of_mem_filter hshooter

/-- Behind a shot there is no sum of more than a full turn. -/
theorem Folded.natAbs_addends_le (h : e.Folded) {origin : Vec2} {ctx : σ}
    (hctx : FireContext.Reliable ctx) {a b : Int} (hsum : e.addends origin ctx = some (a, b)) :
    (a + b).natAbs ≤ 360 := by
  have hoffset := h.offset
  cases hmode : e.mode with
  | static =>
    rw [addends, hmode] at hsum
    cases hsum
  | aimed =>
    simp only [addends, hmode, Option.some.injEq, Prod.mk.injEq] at hsum
    have htarget := hctx.angle origin
    omega
  | random =>
    simp only [addends, hmode, Option.some.injEq, Prod.mk.injEq] at hsum
    have hspread := hctx.draw e.angleOffset
    have htarget := hctx.angle_drawn e.angleOffset origin
    omega

/-- **Emitters stay well formed.** Take any emitter without a program, and do with it whatever an
owner can do: load one program after another, checked or not, tick, restart, and let it hear beats.
Then the counter and the begin of every open loop lie inside the program or at its end, no more
loops are open than there is room for, and the offset and the last direction are at most half a turn
to either side, however far the program has turned. The same holds wherever a cycle begins in the
next call; and every shot that is asked for there is fired at the offset itself, or at the folded
sum of two angles. It leaves at half a turn at most, and if the surroundings answer in the range
that they promise, the sum has not left the range of 32-bit angles. -/
theorem stays_wellFormed (maxDepth : Nat) (calls : List (Call σ)) :
    let e := (idle maxDepth).after calls
    e.WellFormed maxDepth ∧
      ∀ c : Call σ,
        (∀ s ∈ (e.entry c).cycles, s.WellFormed maxDepth) ∧
        e.requests c = (e.firings c).map Firing.request ∧
        ∀ x ∈ e.firings c,
          x.request.angle = ((x.shooter.addends x.origin x.ctx).elim x.shooter.angleOffset
            fun sum => wrapAngle (sum.1 + sum.2)) ∧
          x.request.angle.natAbs ≤ 180 ∧
          (FireContext.Reliable x.ctx → ∀ a b, x.shooter.addends x.origin x.ctx = some (a, b) →
            minAngle ≤ a + b ∧ a + b ≤ maxAngle) := by
  intro e
  have hafter : e.WellFormed maxDepth := wellFormed_after maxDepth calls
  refine ⟨hafter, fun c => ?_⟩
  have hcycles : ∀ s ∈ (e.entry c).cycles, s.WellFormed maxDepth :=
    fun _ hs => (kept_wellFormed maxDepth).of_mem_entry hafter hs
  refine ⟨hcycles, e.requests_eq c, fun x hx => ?_⟩
  have hfolded := (hcycles x.shooter (shooter_mem_cycles hx)).folded
  refine ⟨x.shooter.aim_eq x.origin x.ctx, hfolded.natAbs_aim_le x.origin x.ctx, ?_⟩
  intro hctx a b hsum
  have hle := hfolded.natAbs_addends_le hctx hsum
  rw [minAngle, maxAngle]
  omega

end Sessions

/-- The greatest turns to both sides, a shot at random, and a loop start that nothing follows. -/
def overturned : EmitterSpec :=
  ⟨Vec2.zero, ⟨0⟩, 1, ⟨[.offsetAngle minAngle, .mirror, .offsetAngle minAngle, .setMode .random,
    .offsetAngle (-180), .fire, .repeatStart 2]⟩⟩

/-- It is loaded in the middle of the loop of another program. -/
def overturnedCalls : List (Call Lookout) :=
  [.load ⟨Vec2.zero, ⟨0⟩, 1, ⟨[.repeatStart 3, .fire]⟩⟩ true, .tick Vec2.zero ⟨60, true⟩, .beat,
    .load overturned false]

/-- The target is straight up and the random angle at the end of its spread, so the shot adds up to
a full turn. -/
theorem stays_wellFormed_of_overturned :
    let ctx : Lookout := ⟨180, true⟩
    let e := (idle 1).after overturnedCalls
    FireContext.Reliable ctx ∧ e.WellFormed 1 ∧
      ∃ x ∈ e.firings (.tick Vec2.zero ctx),
        x.ctx = ctx ∧ x.shooter.addends x.origin x.ctx = some (180, 180) ∧
          minAngle ≤ 180 + 180 ∧ 180 + 180 ≤ maxAngle ∧ x.request.angle = -180 := by
  intro ctx e
  have hctx : FireContext.Reliable ctx := Lookout.reliable (Nat.le_refl 180)
  obtain ⟨hafter, hcalls⟩ := stays_wellFormed 1 overturnedCalls
  obtain ⟨-, -, hshots⟩ := hcalls (.tick Vec2.zero ctx)
  obtain ⟨hangle, -, hsum⟩ := hshots _ (List.mem_singleton_self _)
  obtain ⟨hleast, hgreatest⟩ := hsum hctx 180 180 rfl
  exact ⟨hctx, hafter, _, List.mem_singleton_self _, rfl, rfl, hleast, hgreatest, hangle⟩

/-- Behind the shot the program goes on at its end, where the body of the loop begins. -/
example :
    let tick : Call Lookout := .tick Vec2.zero ⟨180, true⟩
    ((((idle 1).after overturnedCalls).call tick).entry tick).cycles.map
        (fun s => (s.counter, s.repeats)) =
      [(6, []), (7, [⟨7, none, 2⟩]), (7, [⟨7, none, 1⟩])] :=
  rfl

end Emitter

end BulletHell
