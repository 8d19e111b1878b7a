import BulletHell.Proofs.Geometry.Angle
import BulletHell.Proofs.Pattern.Cycle
import BulletHell.Proofs.Pattern.Session

/-!
# What an emitter keeps

Some properties of an emitter are kept by every cycle, wherever it stands and whatever surrounds
it. Between cycles only the waits change, and they change nothing else; so such a property holds
after any number of ticks, restarts and beats. This is shown once here for all of them.

Two such properties are the program itself and that both angles are folded. The angles need no
assumption about the degrees that a program names, since they are folded behind every turn, even
one that was saturated.

## Main definitions

* `Emitter.Kept` — a property that every cycle, every wait and every rewinding keeps
* `Emitter.Folded` — no angle is greater than half a turn

## Main results

* `Emitter.Kept.tick`, `Emitter.Kept.call`, `Emitter.Kept.after` — ticks, calls and sessions
* `Emitter.Kept.of_mem_entry` — and wherever a cycle begins
* `Emitter.kept_program`, `Emitter.kept_offset`, `Emitter.kept_maxDepth`, `Emitter.kept_folded`
-/

namespace BulletHell

namespace Emitter

/-- A property that every cycle, every wait and every rewinding keeps. -/
structure Kept (σ : Type) [FireContext σ] (P : Emitter → Prop) : Prop where
  cycle : ∀ {e : Emitter}, P e → ∀ origin (ctx : σ), P (e.cycle origin ctx).2.1
  waits : ∀ {e : Emitter}, P e → ∀ frames beats,
    P { e with waitFrames := frames, waitBeats := beats }
  rewind : ∀ {e : Emitter}, P e → P e.rewind

variable {σ : Type} [FireContext σ] {P : Emitter → Prop} {e : Emitter}

namespace Kept

theorem run (hP : Kept σ P) (h : P e) (origin : Vec2) (budget : Nat) (ctx : σ) :
    P (run origin budget e ctx).2.1 := by
  induction budget generalizing e ctx with
  | zero => exact h
  | succ budget ih =>
    have hcycle := hP.cycle h origin ctx
    rcases hfirst : e.cycle origin ctx with ⟨flow, e', ctx'⟩
    rw [hfirst] at hcycle
    simp only [Emitter.run, hfirst]
    cases flow with
    | running => exact ih hcycle ctx'
    | yielded => exact hcycle
    | ended => exact hcycle

theorem tick (hP : Kept σ P) (h : P e) (owner : Vec2) (ctx : σ) : P (e.tick owner ctx).2.1 := by
  have hwaited : ∀ frames, P { e with waitFrames := frames } :=
    fun frames => hP.waits h frames e.waitBeats
  rcases e.tick_cases owner ctx with ⟨-, htick⟩ | ⟨-, -, htick⟩ | ⟨-, -, htick⟩
  · rw [htick]
    exact h
  · rw [htick]
    exact hwaited _
  · rw [htick]
    exact hP.run (hwaited 0) _ _ ctx

/-- **One call**, other than one that loads another program. -/
theorem call (hP : Kept σ P) (h : P e) {c : Call σ}
    (hc : ∀ spec mirrored, c ≠ .load spec mirrored) : P (e.call c) := by
  cases c with
  | load spec mirrored => exact absurd rfl (hc spec mirrored)
  | restart owner ctx => exact hP.tick (hP.rewind h) owner ctx
  | tick owner ctx => exact hP.tick h owner ctx
  | beat => exact hP.waits h e.waitFrames _

/-- **Any calls**, where it is kept by what loads a program too. -/
theorem after (hP : Kept σ P)
    (hload : ∀ {e : Emitter}, P e → ∀ spec mirrored, P (e.load spec mirrored)) (h : P e)
    (calls : List (Call σ)) : P (e.after calls) :=
  List.foldlRecOn calls Emitter.call h fun e h c _ => by
    cases c with
    | load spec mirrored => exact hload h spec mirrored
    | _ => exact hP.call h nofun

/-- It holds wherever a cycle begins. -/
theorem of_mem_cycles (hP : Kept σ P) (h : P e) {origin : Vec2} {budget : Nat} {ctx : σ}
    {s : Emitter} (hs : s ∈ cycles origin budget e ctx) : P s := by
  induction budget generalizing e ctx with
  | zero => cases hs
  | succ budget ih =>
    have hcycle := hP.cycle h origin ctx
    rcases hfirst : e.cycle origin ctx with ⟨flow, e', ctx'⟩
    rw [hfirst] at hcycle
    simp only [cycles, hfirst] at hs
    cases flow with
    | running =>
      rcases List.mem_cons.mp hs with rfl | hs
      · exact h
      · exact ih hcycle hs
    | yielded => exact List.mem_singleton.mp hs ▸ h
    | ended => exact List.mem_singleton.mp hs ▸ h

theorem of_mem_tickCycles (hP : Kept σ P) (h : P e) {owner : Vec2} {ctx : σ} {s : Emitter}
    (hs : s ∈ e.tickCycles owner ctx) : P s := by
  rw [tickCycles] at hs
  split at hs
  · cases hs
  · dsimp only at hs
    split at hs
    · cases hs
    · exact hP.of_mem_cycles (hP.waits h _ e.waitBeats) hs

theorem of_mem_entry (hP : Kept σ P) (h : P e) {c : Call σ} {s : Emitter}
    (hs : s ∈ (e.entry c).cycles) : P s := by
  cases c with
  | load spec mirrored => cases hs
  | beat => cases hs
  | tick owner ctx => exact hP.of_mem_tickCycles h hs
  | restart owner ctx => exact hP.of_mem_tickCycles (hP.rewind h) hs

end Kept

/-! ### The program, its place and the room for loops -/

theorem fixed_execute (e : Emitter) (origin : Vec2) (ctx : σ) (op : Instruction) :
    (e.execute origin ctx op).2.1.program = e.program ∧
      (e.execute origin ctx op).2.1.offset = e.offset ∧
      (e.execute origin ctx op).2.1.maxDepth = e.maxDepth := by
  cases op with
  | setMode mode =>
    obtain ⟨offset, heq⟩ := e.exists_setMode_eq mode
    rw [execute, heq]
    exact ⟨rfl, rfl, rfl⟩
  | repeatEnd =>
    obtain ⟨repeats, counter, heq⟩ := e.exists_repeatEnd_eq
    rw [execute, heq]
    exact ⟨rfl, rfl, rfl⟩
  | _ => exact ⟨rfl, rfl, rfl⟩

theorem fixed_cycle (e : Emitter) (origin : Vec2) (ctx : σ) :
    (e.cycle origin ctx).2.1.program = e.program ∧
      (e.cycle origin ctx).2.1.offset = e.offset ∧
      (e.cycle origin ctx).2.1.maxDepth = e.maxDepth := by
  cases hfetch : e.program.fetch? e.counter with
  | none =>
    obtain ⟨repeats, counter, heq⟩ := e.exists_endOfProgram_eq
    rw [cycle, hfetch]
    dsimp only
    rw [heq]
    exact ⟨rfl, rfl, rfl⟩
  | some op =>
    rw [cycle, hfetch]
    exact e.fixed_execute origin ctx op

theorem kept_program (p : Program) : Kept σ fun e => e.program = p where
  cycle h origin ctx := (fixed_cycle _ origin ctx).1.trans h
  waits h _ _ := h
  rewind h := h

theorem kept_offset (place : Vec2) : Kept σ fun e => e.offset = place where
  cycle h origin ctx := (fixed_cycle _ origin ctx).2.1.trans h
  waits h _ _ := h
  rewind h := h

theorem kept_maxDepth (room : Nat) : Kept σ fun e => e.maxDepth = room where
  cycle h origin ctx := (fixed_cycle _ origin ctx).2.2.trans h
  waits h _ _ := h
  rewind h := h

/-- The room for open loops is that of the slot, whatever is done there. -/
theorem after_maxDepth (e : Emitter) (calls : List (Call σ)) :
    (e.after calls).maxDepth = e.maxDepth :=
  (kept_maxDepth e.maxDepth).after (fun h _ _ => h) rfl calls

/-! ### Folded angles -/

/-- Neither the offset nor the last direction is more than half a turn, to either side. -/
structure Folded (e : Emitter) : Prop where
  offset : e.angleOffset.natAbs ≤ 180
  last : e.lastAngle.natAbs ≤ 180

theorem folded_rewind (e : Emitter) : e.rewind.Folded :=
  ⟨Nat.zero_le _, Nat.zero_le _⟩

theorem Folded.natAbs_aim_le (h : e.Folded) (origin : Vec2) (ctx : σ) :
    (e.aim origin ctx).1.natAbs ≤ 180 := by
  rw [aim]
  split
  · exact h.offset
  · exact natAbs_wrapAngle_le _
  · exact natAbs_wrapAngle_le _

theorem Folded.execute (h : e.Folded) (origin : Vec2) (ctx : σ) (op : Instruction) :
    (e.execute origin ctx op).2.1.Folded := by
  cases op with
  | fire => exact ⟨h.offset, h.natAbs_aim_le origin ctx⟩
  | offsetAngle degrees => exact ⟨natAbs_wrapAngle_le _, h.last⟩
  | resetAngle => exact ⟨Nat.zero_le _, h.last⟩
  | setMode mode =>
    rw [Emitter.execute, setMode]
    split
    · exact ⟨h.offset, h.last⟩
    · refine ⟨?_, h.last⟩
      show (if mode = .static then e.lastAngle else 0).natAbs ≤ 180
      split
      · exact h.last
      · exact Nat.zero_le _
  | repeatEnd =>
    obtain ⟨repeats, counter, heq⟩ := e.exists_repeatEnd_eq
    rw [Emitter.execute, heq]
    exact ⟨h.offset, h.last⟩
  | _ => exact ⟨h.offset, h.last⟩

theorem kept_folded : Kept σ Folded where
  cycle := by
    intro e h origin ctx
    cases hfetch : e.program.fetch? e.counter with
    | none =>
      obtain ⟨repeats, counter, heq⟩ := e.exists_endOfProgram_eq
      rw [cycle, hfetch]
      dsimp only
      rw [heq]
      exact ⟨h.offset, h.last⟩
    | some op =>
      rw [cycle, hfetch]
      exact h.execute origin ctx op
  waits h _ _ := ⟨h.offset, h.last⟩
  rewind _ := folded_rewind _

end Emitter

end BulletHell
