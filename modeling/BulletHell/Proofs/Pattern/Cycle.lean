import BulletHell.Pattern.Emitter

/-!
# What loop brackets and ticks can do

A loop bracket looks at the innermost loop, and a tick at the waits, and both go one of three ways.
Each of these ways is an equation here, so that nothing that is shown of an emitter has to take the
bracket or the tick apart by itself.

## Main results

* `Emitter.repeatEnd_nil`, `Emitter.repeatEnd_eq`, `Emitter.repeatEnd_of_ne` — a loop end
* `Emitter.endOfProgram_nil`, `Emitter.endOfProgram_eq` — the end of the program
* `Emitter.tick_of_waitBeats`, `Emitter.tick_of_waitFrames`, `Emitter.tick_of_ready` — a tick
* `Emitter.tick_cases` — that these are all
* `Emitter.exists_repeatEnd_eq`, `Emitter.exists_endOfProgram_eq`, `Emitter.exists_setMode_eq` —
  what they leave alone
-/

namespace BulletHell

namespace Emitter

variable {e : Emitter}

/-! ### Loop brackets -/

/-- A loop start that no other one follows opens a frame whose body begins right behind it. -/
theorem repeatStart_eq (times : Nat)
    (hapart : (e.program.instructions.drop (e.counter + 1)).takeWhile (·.isRepeatStart) = [])
    (hroom : e.repeats.length < e.maxDepth) :
    e.repeatStart times =
      { e with repeats := ⟨e.counter + 1, none, times⟩ :: e.repeats,
               counter := e.counter + 1 } := by
  simp [repeatStart, hapart, hroom]

theorem repeatEnd_nil (hframes : e.repeats = []) : e.repeatEnd = e.advance := by
  rw [repeatEnd, hframes]

/-- A loop end that the innermost frame may end at: it goes back while turns are left, and closes
the loop otherwise. -/
theorem repeatEnd_eq {frame : RepeatFrame} {frames : List RepeatFrame}
    (hframes : e.repeats = frame :: frames)
    (hstop : frame.stop = none ∨ frame.stop = some e.counter) :
    e.repeatEnd =
      if 1 < frame.remaining then
        { e with repeats := ⟨frame.start, some e.counter, frame.remaining - 1⟩ :: frames,
                 counter := frame.start }
      else { e with repeats := frames, counter := e.counter + 1 } := by
  have hhere : frame.stop.getD e.counter = e.counter := by
    rcases hstop with h | h <;> rw [h] <;> rfl
  simp [repeatEnd, hframes, hhere]

/-- A loop end that is known not to be the one of the innermost loop is skipped. -/
theorem repeatEnd_of_ne {frame : RepeatFrame} {frames : List RepeatFrame} {stop : Nat}
    (hframes : e.repeats = frame :: frames) (hstop : frame.stop = some stop)
    (hother : stop ≠ e.counter) : e.repeatEnd = e.advance := by
  rw [repeatEnd, hframes]
  simp only [hstop, Option.getD_some, ne_eq, hother, not_false_eq_true, if_true]

/-- A loop may end at a place, or it is known to end elsewhere. -/
theorem stop_cases (frame : RepeatFrame) (place : Nat) :
    (frame.stop = none ∨ frame.stop = some place) ∨
      ∃ stop, frame.stop = some stop ∧ stop ≠ place := by
  cases hstop : frame.stop with
  | none => exact .inl (.inl rfl)
  | some stop =>
    by_cases hplace : stop = place
    · exact .inl (.inr (congrArg some hplace))
    · exact .inr ⟨stop, rfl, hplace⟩

theorem endOfProgram_nil (hframes : e.repeats = []) : e.endOfProgram = (.ended, e) := by
  rw [endOfProgram, hframes]

/-- The end of the program, likewise. -/
theorem endOfProgram_eq {frame : RepeatFrame} {frames : List RepeatFrame}
    (hframes : e.repeats = frame :: frames) :
    e.endOfProgram =
      if 1 < frame.remaining then
        (.running, { e with repeats := { frame with remaining := frame.remaining - 1 } :: frames,
                            counter := frame.start })
      else (.ended, { e with repeats := frames }) := by
  rw [endOfProgram, hframes]

/-- A loop end touches the loops and the place only. -/
theorem exists_repeatEnd_eq (e : Emitter) :
    ∃ repeats counter, e.repeatEnd = { e with repeats := repeats, counter := counter } := by
  cases hframes : e.repeats with
  | nil => exact ⟨_, _, repeatEnd_nil hframes⟩
  | cons frame frames =>
    rcases stop_cases frame e.counter with hown | ⟨stop, hstop, hother⟩
    · rw [repeatEnd_eq hframes hown]
      split <;> exact ⟨_, _, rfl⟩
    · exact ⟨_, _, repeatEnd_of_ne hframes hstop hother⟩

/-- So does the end of the program. -/
theorem exists_endOfProgram_eq (e : Emitter) :
    ∃ repeats counter, e.endOfProgram.2 = { e with repeats := repeats, counter := counter } := by
  cases hframes : e.repeats with
  | nil =>
    rw [endOfProgram_nil hframes]
    exact ⟨e.repeats, e.counter, rfl⟩
  | cons frame frames =>
    rw [endOfProgram_eq hframes]
    split
    · exact ⟨_, _, rfl⟩
    · exact ⟨_, e.counter, rfl⟩

/-! ### Modes -/

/-- A change of the mode touches the mode and the offset only. -/
theorem exists_setMode_eq (e : Emitter) (mode : FireMode) :
    ∃ offset, e.setMode mode = { e with mode := mode, angleOffset := offset } := by
  rw [setMode]
  split
  · next hsame =>
    subst hsame
    exact ⟨_, rfl⟩
  · exact ⟨_, rfl⟩

/-! ### Ticks -/

variable {σ : Type} [FireContext σ]

theorem tick_of_waitBeats (h : 0 < e.waitBeats) (owner : Vec2) (ctx : σ) :
    e.tick owner ctx = (true, e, ctx) :=
  if_pos h

theorem tick_of_waitFrames (h : e.waitBeats = 0) (hframes : 1 < e.waitFrames) (owner : Vec2)
    (ctx : σ) : e.tick owner ctx = (true, { e with waitFrames := e.waitFrames - 1 }, ctx) := by
  rw [tick, if_neg (by omega)]
  exact if_pos (show 0 < e.waitFrames - 1 by omega)

theorem tick_of_ready (h : e.waitBeats = 0) (hframes : e.waitFrames ≤ 1) (owner : Vec2)
    (ctx : σ) : e.tick owner ctx =
      run (e.origin owner) maxCyclesPerTick { e with waitFrames := 0 } ctx := by
  have hwaited : e.waitFrames - 1 = 0 := by omega
  rw [tick, if_neg (by omega), hwaited]
  exact if_neg (Nat.lt_irrefl 0)

/-- A tick waits for beats, or for frames, or runs. -/
theorem tick_cases (e : Emitter) (owner : Vec2) (ctx : σ) :
    (0 < e.waitBeats ∧ e.tick owner ctx = (true, e, ctx)) ∨
      (e.waitBeats = 0 ∧ 1 < e.waitFrames ∧
        e.tick owner ctx = (true, { e with waitFrames := e.waitFrames - 1 }, ctx)) ∨
      (e.waitBeats = 0 ∧ e.waitFrames ≤ 1 ∧
        e.tick owner ctx =
          run (e.origin owner) maxCyclesPerTick { e with waitFrames := 0 } ctx) := by
  rcases Nat.eq_zero_or_pos e.waitBeats with hbeats | hbeats
  · rcases Nat.lt_or_ge 1 e.waitFrames with hframes | hframes
    · exact .inr (.inl ⟨hbeats, hframes, tick_of_waitFrames hbeats hframes owner ctx⟩)
    · exact .inr (.inr ⟨hbeats, hframes, tick_of_ready hbeats hframes owner ctx⟩)
  · exact .inl ⟨hbeats, tick_of_waitBeats hbeats owner ctx⟩

end Emitter

end BulletHell
