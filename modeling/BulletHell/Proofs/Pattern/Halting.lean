import BulletHell.Proofs.Pattern.Session

/-!
# Every program ends

A lenient program may hold any brackets at all. They may overlap or stand next to one another,
turn zero times, nest too deep or have no partner, and a loop that is left open is closed by the
end of the program. So it is not plain that an emitter ever comes to the end of what it runs.

It does, because a jump always leads forward of the loop start that made it possible. A loop
start opens at most one frame, and the body of that frame begins behind it. So the instructions
behind a loop start may be run once for every turn of its frame, and not more often.

## Why one number will do

Jumping back undoes progress: loop starts are met again and open frames anew. But a turn that is
left on a frame can be charged in advance with all that follows the start of its body, since that
does not depend on anything the emitter does on the way. `work` is this charge, for a list of
instructions, and `Emitter.work` for all that an emitter has in front of it. No order on stacks
is needed, and nothing has to be known of the frames: they may be any at all.

## Main definitions

* `Instruction.work` — what running a list of instructions to its end may cost
* `Emitter.work` — what an emitter has in front of it
* `Emitter.afterRounds` — an emitter that hears a beat and is ticked, again and again
* `Emitter.rounds` — the calls of such rounds

## Main results

* `Emitter.cycle_work`, `Emitter.run_work` — every cycle costs something
* `Emitter.round_work` — and so does every beat with the tick that follows it
* `Emitter.round_induction` — what this is used for
* `Emitter.every_program_ends`
* `Emitter.exists_ended_in_rounds` — the same, seen in the log of a session
-/

namespace BulletHell

namespace Instruction

/-- The cycle that runs the instruction, and the wait it asks for. -/
def span : Instruction → Nat
  | waitFrames frames => frames + 1
  | waitBeats beats => beats + 1
  | _ => 1

/-- What running a list of instructions to its end may cost, all loops included that open on the
way. Each turn of a loop costs as much as everything behind the loop starts in a row to which its
own belongs. -/
def work : List Instruction → Nat
  | [] => 1
  | repeatStart times :: rest =>
    1 + work rest + times * work (rest.dropWhile isRepeatStart)
  | op :: rest => op.span + work rest
termination_by ops => ops.length
decreasing_by
  · simp
  · exact Nat.lt_succ_of_le (List.dropWhile_sublist _).length_le
  · simp

theorem work_nil : work [] = 1 := by
  rw [work]

theorem work_repeatStart (times : Nat) (rest : List Instruction) :
    work (repeatStart times :: rest) =
      1 + work rest + times * work (rest.dropWhile isRepeatStart) := by
  rw [work]

theorem work_cons {op : Instruction} (h : op.isRepeatStart = false) (rest : List Instruction) :
    work (op :: rest) = op.span + work rest := by
  cases op with
  | repeatStart times => cases h
  | _ => rw [work]; simp

theorem span_pos (op : Instruction) : 0 < op.span := by
  cases op <;> exact Nat.succ_pos _

theorem work_pos (ops : List Instruction) : 0 < work ops := by
  cases ops with
  | nil => simp [work_nil]
  | cons op rest =>
    cases op with
    | repeatStart times => rw [work_repeatStart]; omega
    | _ => rw [work_cons rfl]; exact Nat.add_pos_left (span_pos _) _

/-- Behind the loop starts that follow one another. -/
theorem dropWhile_isRepeatStart (ops : List Instruction) :
    ops.dropWhile isRepeatStart = ops.drop (ops.takeWhile isRepeatStart).length := by
  calc ops.dropWhile isRepeatStart
      = (ops.takeWhile isRepeatStart ++ ops.dropWhile isRepeatStart).drop
          (ops.takeWhile isRepeatStart).length := List.drop_left.symm
    _ = ops.drop (ops.takeWhile isRepeatStart).length := by
      rw [List.takeWhile_append_dropWhile]

end Instruction

namespace Program

/-- What running on from a place to the end of the program may cost. -/
def workFrom (p : Program) (place : Nat) : Nat :=
  Instruction.work (p.instructions.drop place)

/-- What the turns cost that are left on some frames. -/
def turnsWork (p : Program) : List RepeatFrame → Nat
  | [] => 0
  | frame :: frames => frame.remaining * p.workFrom frame.start + p.turnsWork frames

variable {p : Program} {place : Nat}

theorem workFrom_pos (p : Program) (place : Nat) : 0 < p.workFrom place :=
  Instruction.work_pos _

/-- Jumping back to the start of a frame uses up one of its turns. -/
theorem workFrom_add_turnsWork (p : Program) (frame : RepeatFrame) (rest : List RepeatFrame)
    (h : 1 < frame.remaining) (stop : Option Nat) :
    p.workFrom frame.start + p.turnsWork (⟨frame.start, stop, frame.remaining - 1⟩ :: rest) =
      p.turnsWork (frame :: rest) := by
  obtain ⟨left, hleft⟩ : ∃ left, frame.remaining = left + 1 := ⟨frame.remaining - 1, by omega⟩
  simp only [turnsWork, hleft, Nat.add_sub_cancel, Nat.succ_mul]
  omega

theorem workFrom_of_fetch? {op : Instruction} (h : p.fetch? place = some op)
    (hop : op.isRepeatStart = false) : p.workFrom place = op.span + p.workFrom (place + 1) := by
  obtain ⟨hlt, hget⟩ := List.getElem?_eq_some_iff.mp h
  rw [workFrom, List.drop_eq_getElem_cons hlt, hget, Instruction.work_cons hop]
  rfl

/-- The body of a loop begins behind all loop starts that follow its own, so the turns of a loop
are charged where it opens. -/
theorem workFrom_of_fetch?_repeatStart {times : Nat}
    (h : p.fetch? place = some (.repeatStart times)) :
    p.workFrom place = 1 + p.workFrom (place + 1) + times * p.workFrom (place + 1 +
      ((p.instructions.drop (place + 1)).takeWhile (·.isRepeatStart)).length) := by
  obtain ⟨hlt, hget⟩ := List.getElem?_eq_some_iff.mp h
  rw [workFrom, List.drop_eq_getElem_cons hlt, hget, Instruction.work_repeatStart,
    Instruction.dropWhile_isRepeatStart, List.drop_drop]
  rfl

end Program

namespace Emitter

/-- What an emitter has in front of it: the rest of the program from where it is, the turns that
are left on its frames, and the waits. -/
def work (e : Emitter) : Nat :=
  e.program.workFrom e.counter + e.program.turnsWork e.repeats + e.waitFrames + e.waitBeats

theorem work_pos (e : Emitter) : 0 < e.work := by
  have hrest := e.program.workFrom_pos e.counter
  rw [work]
  omega

/-! ### Cycles -/

theorem repeatStart_work {e : Emitter} {times : Nat}
    (h : e.program.fetch? e.counter = some (.repeatStart times)) :
    (e.repeatStart times).work < e.work := by
  have hhere := Program.workFrom_of_fetch?_repeatStart h
  simp only [repeatStart, work, hhere]
  split
  · simp only [Program.turnsWork]
    omega
  · omega

theorem repeatEnd_work {e : Emitter} (h : e.program.fetch? e.counter = some .repeatEnd) :
    e.repeatEnd.work < e.work := by
  have hhere : e.program.workFrom e.counter = 1 + e.program.workFrom (e.counter + 1) :=
    Program.workFrom_of_fetch? h rfl
  have hadvance : e.advance.work < e.work := by
    simp only [advance, work, hhere]
    omega
  cases hrepeats : e.repeats with
  | nil => simpa only [repeatEnd, hrepeats] using hadvance
  | cons frame rest =>
    simp only [repeatEnd, hrepeats]
    split
    · exact hadvance
    · split
      · next hturns =>
        have hjump := e.program.workFrom_add_turnsWork frame rest hturns
          (some (frame.stop.getD e.counter))
        simp only [work, hrepeats]
        omega
      · simp only [work, hrepeats, hhere, Program.turnsWork]
        omega

theorem endOfProgram_work {e : Emitter}
    (hrunning : e.endOfProgram.1 ≠ .ended) : e.endOfProgram.2.work < e.work := by
  cases hrepeats : e.repeats with
  | nil =>
    simp only [endOfProgram, hrepeats] at hrunning
    exact absurd rfl hrunning
  | cons frame rest =>
    simp only [endOfProgram, hrepeats] at hrunning ⊢
    split at hrunning
    · next hturns =>
      have hjump := e.program.workFrom_add_turnsWork frame rest hturns frame.stop
      have hhere := e.program.workFrom_pos e.counter
      rw [if_pos hturns]
      simp only [work, hrepeats]
      omega
    · exact absurd rfl hrunning

variable {σ : Type} [FireContext σ]

/-- **A cycle** that does not end the program leaves less in front of the emitter. -/
theorem cycle_work (e : Emitter) (origin : Vec2) (ctx : σ)
    (h : (e.cycle origin ctx).1 ≠ .ended) : (e.cycle origin ctx).2.1.work < e.work := by
  cases hfetch : e.program.fetch? e.counter with
  | none =>
    simp only [cycle, hfetch] at h ⊢
    exact endOfProgram_work h
  | some op =>
    simp only [cycle, hfetch]
    have hhere : op.isRepeatStart = false →
        e.program.workFrom e.counter = op.span + e.program.workFrom (e.counter + 1) :=
      Program.workFrom_of_fetch? hfetch
    cases op with
    | repeatStart times => exact repeatStart_work hfetch
    | repeatEnd => exact repeatEnd_work hfetch
    | setMode mode =>
      have hmode : (e.setMode mode).advance.work = e.advance.work := by
        rw [setMode]
        split <;> rfl
      have hstep : e.advance.work < e.work := by
        simp only [advance, work, hhere rfl, Instruction.span]
        omega
      exact hmode ▸ hstep
    | _ =>
      simp only [execute, fire, turn, advance, work, hhere rfl, Instruction.span]
      omega

/-- No run is ever left with more than it began with. -/
theorem run_work_le (origin : Vec2) (budget : Nat) (e : Emitter) (ctx : σ)
    (h : (run origin budget e ctx).1 = true) : (run origin budget e ctx).2.1.work ≤ e.work := by
  induction budget generalizing e ctx with
  | zero => exact Nat.le_refl _
  | succ budget ih =>
    have hcycle := e.cycle_work origin ctx
    rcases hfirst : e.cycle origin ctx with ⟨flow, e', ctx'⟩
    rw [hfirst] at hcycle
    simp only [run, hfirst] at h ⊢
    cases flow with
    | running => exact Nat.le_trans (ih e' ctx' h) (Nat.le_of_lt (hcycle (by simp)))
    | yielded => exact Nat.le_of_lt (hcycle (by simp))
    | ended => cases h

/-- **A run** of at least one cycle costs something, unless it ends the program. -/
theorem run_work (origin : Vec2) (budget : Nat) (e : Emitter) (ctx : σ)
    (h : (run origin (budget + 1) e ctx).1 = true) :
    (run origin (budget + 1) e ctx).2.1.work < e.work := by
  have hcycle := e.cycle_work origin ctx
  rcases hfirst : e.cycle origin ctx with ⟨flow, e', ctx'⟩
  rw [hfirst] at hcycle
  simp only [run, hfirst] at h ⊢
  cases flow with
  | running => exact Nat.lt_of_le_of_lt (run_work_le origin budget e' ctx' h) (hcycle (by simp))
  | yielded => exact hcycle (by simp)
  | ended => cases h

/-! ### Rounds -/

/-- A beat, and the tick that follows it. -/
def round (e : Emitter) (owner : Vec2) (ctx : σ) : Bool × Emitter × σ :=
  e.onBeat.tick owner ctx

/-- **A round** costs something, unless its tick finds that the program has ended. Where a wait is
pending, the round is one off the wait: a beat off a beat wait, and otherwise a frame. -/
theorem round_work (e : Emitter) (owner : Vec2) (ctx : σ) (h : (e.round owner ctx).1 = true) :
    (e.round owner ctx).2.1.work < e.work := by
  have hrest := e.program.workFrom_pos e.counter
  let waited : Emitter := { e.onBeat with waitFrames := e.waitFrames - 1 }
  by_cases hbeats : 0 < e.onBeat.waitBeats
  · have hround : e.round owner ctx = (true, e.onBeat, ctx) := if_pos hbeats
    rw [hround]
    simp only [work, onBeat] at hbeats ⊢
    omega
  · by_cases hframes : 0 < e.waitFrames - 1
    · have hround : e.round owner ctx = (true, waited, ctx) :=
        (if_neg hbeats).trans (if_pos hframes)
      rw [hround]
      simp only [work, onBeat, waited]
      omega
    · have hround : e.round owner ctx =
          run (e.origin owner) ((maxCyclesPerTick - 1) + 1) waited ctx :=
        (if_neg hbeats).trans (if_neg hframes)
      rw [hround] at h ⊢
      refine Nat.lt_of_lt_of_le (run_work _ _ waited ctx h) ?_
      simp only [work, onBeat, waited]
      omega

/-- The emitter after some rounds. Each round has its own surroundings. -/
def afterRounds (around : Nat → Vec2 × σ) (e : Emitter) : Nat → Emitter
  | 0 => e
  | n + 1 =>
    ((afterRounds around e n).round (around n).1 (around n).2).2.1

theorem afterRounds_succ (around : Nat → Vec2 × σ) (e : Emitter) (n : Nat) :
    e.afterRounds around (n + 1) =
      (e.round (around 0).1 (around 0).2).2.1.afterRounds (fun k => around (k + 1)) n := by
  induction n with
  | zero => rfl
  | succ n ih => rw [afterRounds, ih, afterRounds]

/-- **Induction on rounds.** There are two cases: the first round ends the program, or it leaves
less to do, and what is to be shown holds from there on. -/
theorem round_induction {motive : Emitter → (Nat → Vec2 × σ) → Prop}
    (ended : ∀ e around, (e.round (around 0).1 (around 0).2).1 = false → motive e around)
    (goesOn : ∀ e around, (e.round (around 0).1 (around 0).2).2.1.work < e.work →
      motive (e.round (around 0).1 (around 0).2).2.1 (fun k => around (k + 1)) → motive e around)
    (e : Emitter) (around : Nat → Vec2 × σ) : motive e around := by
  induction hwork : e.work using Nat.strongRecOn generalizing e around with
  | _ work ih =>
    subst hwork
    cases hfirst : (e.round (around 0).1 (around 0).2).1 with
    | false => exact ended e around hfirst
    | true =>
      have hless := e.round_work (around 0).1 (around 0).2 hfirst
      exact goesOn e around hless (ih _ hless _ _ rfl)

/-- **Every program ends.** Take any emitter, with any program, any limit on open loops and any
state, and let it hear a beat and be ticked, again and again, wherever its owner is and whatever
it fires into. The number of rounds after which a tick answers that the program has ended is less
than a number that the emitter alone decides. -/
theorem every_program_ends (e : Emitter) (around : Nat → Vec2 × σ) :
    ∃ n < e.work,
      ((e.afterRounds around n).round (around n).1 (around n).2).1 = false := by
  induction e, around using round_induction with
  | ended e around hfirst => exact ⟨0, e.work_pos, hfirst⟩
  | goesOn e around hless ih =>
    obtain ⟨n, hn, hended⟩ := ih
    refine ⟨n + 1, by omega, ?_⟩
    rw [afterRounds_succ]
    exact hended

/-- The calls of some rounds. -/
def rounds (around : Nat → Vec2 × σ) : Nat → List (Call σ)
  | 0 => []
  | n + 1 => .beat :: .tick (around 0).1 (around 0).2 :: rounds (fun k => around (k + 1)) n

/-- **Rounds end a program**, whatever has happened to the emitter before. -/
theorem exists_ended_in_rounds (e : Emitter) (around : Nat → Vec2 × σ) :
    ∃ n, ∃ r ∈ e.log (rounds around n), r.answer = some false := by
  induction e, around using round_induction with
  | ended e around hfirst =>
    refine ⟨1, e.onBeat.entry (.tick (around 0).1 (around 0).2), ?_, congrArg some hfirst⟩
    exact List.mem_cons_of_mem _ List.mem_cons_self
  | goesOn e around _ ih =>
    obtain ⟨n, r, hr, hended⟩ := ih
    exact ⟨n + 1, r, List.mem_cons_of_mem _ (List.mem_cons_of_mem _ hr), hended⟩

end Emitter

end BulletHell
