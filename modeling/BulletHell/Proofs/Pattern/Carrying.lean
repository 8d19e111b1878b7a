import BulletHell.Proofs.Pattern.Cycle
import BulletHell.Proofs.Pattern.Session

/-!
# What a session carries on

What a program does is best said of a single cycle: it executes the first of the instructions that
are still to come, or nothing, and leaves the others. A cycle does not know in which call it runs or
how much of the budget is left. So a statement of that kind can be carried on to runs, to calls and
to whole sessions without a look at the program, and it is done here once for all of them.

A statement about cycles is a predicate of an emitter and of the instructions that are still to
come. Beside the instructions it may vouch for the state in which each cycle begins.

## Main definitions

* `Emitter.AtEnd` — at the end of the program, with nothing to wait for
* `Emitter.Finished`, `Emitter.Over` — no loop is open there, so nothing happens any more
* `Emitter.AtStart` — in front of a program
* `Emitter.Carries` — a statement that one cycle carries on
* `Emitter.Enacts` — a log of what was to come

## Main results

* `Emitter.atEnd_of_tick` — where a tick leaves the emitter that answers that the program has ended
* `Emitter.Carries.call`, `Emitter.Carries.begins` — one call
* `Emitter.Carries.log`, `Emitter.Carries.session` — a number of calls, and a session
* `Emitter.Carries.over_of_ended` — the emitter behind a tick that has ended the program
-/

namespace BulletHell

namespace Emitter

variable {σ : Type} [FireContext σ] {e : Emitter}

/-! ### One cycle -/

theorem cycle_of_next? {i : Instruction} (h : e.next? = some i) (origin : Vec2) (ctx : σ) :
    e.cycle origin ctx = e.execute origin ctx i := by
  rw [cycle, show e.program.fetch? e.counter = some i from h]

theorem cycle_of_next?_eq_none (h : e.next? = none) (origin : Vec2) (ctx : σ) :
    e.cycle origin ctx = (e.endOfProgram.1, e.endOfProgram.2, ctx) := by
  rw [cycle, show e.program.fetch? e.counter = none from h]

theorem nextPlain_of_next?_eq_none (h : e.next? = none) : e.nextPlain = [] := by
  simp [nextPlain, h]

/-- Only a wait changes what is waited for, and it ends the tick. -/
theorem waits_cycle (e : Emitter) (origin : Vec2) (ctx : σ)
    (h : (e.cycle origin ctx).1 ≠ .yielded) :
    (e.cycle origin ctx).2.1.waitFrames = e.waitFrames ∧
      (e.cycle origin ctx).2.1.waitBeats = e.waitBeats := by
  cases hnext : e.next? with
  | none =>
    obtain ⟨repeats, counter, heq⟩ := e.exists_endOfProgram_eq
    rw [cycle_of_next?_eq_none hnext, heq]
    exact ⟨rfl, rfl⟩
  | some i =>
    rw [cycle_of_next? hnext] at h ⊢
    cases i with
    | fire => exact absurd rfl h
    | waitFrames frames => exact absurd rfl h
    | waitBeats beats => exact absurd rfl h
    | setMode mode =>
      obtain ⟨offset, heq⟩ := e.exists_setMode_eq mode
      rw [execute, heq]
      exact ⟨rfl, rfl⟩
    | repeatEnd =>
      obtain ⟨repeats, counter, heq⟩ := e.exists_repeatEnd_eq
      rw [execute, heq]
      exact ⟨rfl, rfl⟩
    | _ => exact ⟨rfl, rfl⟩

/-- Only the end of the program ends it, and the counter stays there. -/
theorem next?_cycle (e : Emitter) (origin : Vec2) (ctx : σ) (h : (e.cycle origin ctx).1 = .ended) :
    (e.cycle origin ctx).2.1.next? = none := by
  cases hnext : e.next? with
  | none =>
    rw [cycle_of_next?_eq_none hnext] at h ⊢
    rw [endOfProgram] at h ⊢
    split at h
    · exact hnext
    · split at h
      · cases h
      · next hspent =>
        rw [if_neg hspent]
        exact hnext
  | some i =>
    rw [cycle_of_next? hnext] at h
    cases i <;> cases h

/-! ### The end of the program -/

/-- At the end of the program, with nothing to wait for. -/
structure AtEnd (e : Emitter) : Prop where
  next? : e.next? = none
  waitFrames : e.waitFrames = 0
  waitBeats : e.waitBeats = 0

/-- Nothing is left to run. -/
def Finished (e : Emitter) : Prop :=
  e.next? = none ∧ e.repeats = []

/-- Nothing is left to run and nothing is waited for. -/
def Over (e : Emitter) : Prop :=
  e.Finished ∧ e.waitFrames = 0 ∧ e.waitBeats = 0

/-- A run that ends the program leaves the waits as they were. -/
theorem atEnd_run (origin : Vec2) (budget : Nat) (e : Emitter) (ctx : σ)
    (hframes : e.waitFrames = 0) (hbeats : e.waitBeats = 0)
    (h : (run origin budget e ctx).1 = false) : (run origin budget e ctx).2.1.AtEnd := by
  induction budget generalizing e ctx with
  | zero => cases h
  | succ budget ih =>
    have hwaits := waits_cycle e origin ctx
    have hnext := next?_cycle e origin ctx
    rw [run] at h ⊢
    split at h
    · rename_i e' ctx' hcycle
      simp only [hcycle] at hwaits ⊢
      obtain ⟨hframes', hbeats'⟩ := hwaits (by simp)
      exact ih e' ctx' (hframes'.trans hframes) (hbeats'.trans hbeats) h
    · cases h
    · rename_i e' ctx' hcycle
      simp only [hcycle] at hwaits hnext ⊢
      obtain ⟨hframes', hbeats'⟩ := hwaits (by simp)
      exact ⟨hnext trivial, hframes'.trans hframes, hbeats'.trans hbeats⟩

/-- **A tick that answers that the program has ended** leaves the emitter at its end. -/
theorem atEnd_of_tick {owner : Vec2} {ctx : σ} (h : (e.tick owner ctx).1 = false) :
    (e.tick owner ctx).2.1.AtEnd := by
  rcases e.tick_cases owner ctx with ⟨-, htick⟩ | ⟨-, -, htick⟩ | ⟨hbeats, -, htick⟩
  · rw [htick] at h
    cases h
  · rw [htick] at h
    cases h
  · rw [htick] at h ⊢
    exact atEnd_run _ _ _ _ rfl hbeats h

/-- A tick there is a run. -/
theorem AtEnd.tick (h : e.AtEnd) (owner : Vec2) (ctx : σ) :
    e.tick owner ctx = run (e.origin owner) maxCyclesPerTick e ctx ∧
      e.tickCycles owner ctx = cycles (e.origin owner) maxCyclesPerTick e ctx := by
  have hsame : { e with waitFrames := e.waitFrames - 1 } = e := by
    rw [h.waitFrames, Nat.zero_sub, ← h.waitFrames]
  have hready : ¬ 0 < e.waitBeats ∧ ¬ 0 < e.waitFrames - 1 := by
    rw [h.waitFrames, h.waitBeats]
    decide
  simp only [Emitter.tick, tickCycles, hready, if_false, hsame]
  exact ⟨trivial, trivial⟩

/-- A beat changes nothing there. -/
theorem AtEnd.onBeat (h : e.AtEnd) : e.onBeat = e := by
  rw [Emitter.onBeat, h.waitBeats, Nat.zero_sub, ← h.waitBeats]

theorem Over.atEnd (h : e.Over) : e.AtEnd :=
  ⟨h.1.1, h.2.1, h.2.2⟩

/-- Where the program has ended and no loop is open, nothing happens any more. -/
theorem Finished.cycle (h : e.Finished) (origin : Vec2) (ctx : σ) :
    e.cycle origin ctx = (.ended, e, ctx) := by
  rw [cycle_of_next?_eq_none h.1, endOfProgram, h.2]

theorem Over.tick (h : e.Over) (owner : Vec2) (ctx : σ) :
    e.tick owner ctx = (false, e, ctx) ∧ e.tickCycles owner ctx = [e] := by
  obtain ⟨htick, hcycles⟩ := h.atEnd.tick owner ctx
  rw [htick, hcycles, maxCyclesPerTick, run, cycles, h.1.cycle]
  exact ⟨rfl, rfl⟩

/-- Once the program is over, every tick says so and executes nothing. -/
theorem Over.call (h : e.Over) {c : Call σ} (hc : c.GoesOn) :
    (e.call c).Over ∧ (e.entry c).executed = [] ∧ (e.entry c).answer ≠ some true := by
  cases c with
  | load spec mirrored => exact hc.elim
  | restart owner ctx => exact hc.elim
  | beat =>
    rw [Emitter.call, h.atEnd.onBeat]
    exact ⟨h, rfl, fun h => by cases h⟩
  | tick owner ctx =>
    obtain ⟨htick, hcycles⟩ := h.tick owner ctx
    rw [Emitter.call, entry, htick, hcycles]
    exact ⟨h, by simp [Entry.executed, nextPlain_of_next?_eq_none h.1.1],
      fun h => by cases h⟩

theorem Over.log (h : e.Over) {calls : List (Call σ)} (hcalls : ∀ c ∈ calls, c.GoesOn) :
    ∀ r ∈ e.log calls, r.executed = [] ∧ r.answer ≠ some true := by
  induction calls generalizing e with
  | nil => simp [Emitter.log]
  | cons c calls ih =>
    obtain ⟨hc, hcalls⟩ := List.forall_mem_cons.mp hcalls
    obtain ⟨hover, hentry⟩ := h.call hc
    exact List.forall_mem_cons.mpr ⟨hentry, ih hover hcalls⟩

/-! ### From a cycle to a session -/

/-- A statement about an emitter and the instructions still to come that a cycle carries on: the
cycle begins in a state that is vouched for, and executes the first of the instructions or nothing;
and when it ends the program, all of them have been executed and nothing is left to run. -/
structure Carries (σ : Type) [FireContext σ] (vouched : Emitter → Prop)
    (I : List Instruction → Emitter → Prop) : Prop where
  waits : ∀ {todo e}, I todo e → ∀ frames beats,
    I todo { e with waitFrames := frames, waitBeats := beats }
  cycle : ∀ {todo e}, I todo e → ∀ (origin : Vec2) (ctx : σ), vouched e ∧
    ∃ todo', todo = e.nextPlain ++ todo' ∧ I todo' (e.cycle origin ctx).2.1 ∧
      ((e.cycle origin ctx).1 = .ended → todo' = [] ∧ (e.cycle origin ctx).2.1.Finished)

/-- In front of a program, with no loop open. -/
structure AtStart (p : Program) (e : Emitter) : Prop where
  program : e.program = p
  counter : e.counter = 0
  repeats : e.repeats = []

/-- What a call does to the instructions still to come. -/
structure Advanced (vouched : Emitter → Prop) (I : List Instruction → Emitter → Prop)
    (todo : List Instruction) (r : Entry) (e' : Emitter) : Prop where
  vouched : ∀ s ∈ r.cycles, vouched s
  rest : ∃ todo', todo = r.executed ++ todo' ∧ I todo' e' ∧
    (r.answer = some false → todo' = [] ∧ e'.Over)

/-- A log of what was to come: it was executed in order, and all of it by the time that a tick
answered that the program had ended. From there on nothing was executed. -/
structure Enacts (todo : List Instruction) (entries : List Entry) : Prop where
  executed_le : executed entries <+: todo
  complete : ∀ before r after, entries = before ++ r :: after → r.answer = some false →
    executed (before ++ [r]) = todo ∧ ∀ s ∈ after, s.executed = [] ∧ s.answer ≠ some true

/-- One more call in front. -/
theorem Enacts.cons {r : Entry} {entries : List Entry} {todo : List Instruction}
    (h : Enacts todo entries)
    (hended : r.answer = some false →
      todo = [] ∧ ∀ s ∈ entries, s.executed = [] ∧ s.answer ≠ some true) :
    Enacts (r.executed ++ todo) (r :: entries) where
  executed_le := (List.prefix_append_right_inj r.executed).mpr h.executed_le
  complete := by
    intro before s after heq hfalse
    cases before with
    | nil =>
      obtain ⟨rfl, rfl⟩ := List.cons.inj heq
      obtain ⟨rfl, hlater⟩ := hended hfalse
      exact ⟨by simp [executed], hlater⟩
    | cons first before =>
      obtain ⟨rfl, hentries⟩ := List.cons.inj heq
      obtain ⟨hall, hlater⟩ := h.complete before s after hentries hfalse
      refine ⟨?_, hlater⟩
      rw [← hall]
      simp [executed]

namespace Carries

variable {vouched : Emitter → Prop} {I : List Instruction → Emitter → Prop}
  {todo : List Instruction}

/-- **One run**, by induction on its budget. -/
theorem run (hI : Carries σ vouched I) (h : I todo e) (origin : Vec2) (budget : Nat) (ctx : σ) :
    (∀ s ∈ cycles origin budget e ctx, vouched s) ∧
      ∃ todo', todo = (cycles origin budget e ctx).flatMap nextPlain ++ todo' ∧
        I todo' (Emitter.run origin budget e ctx).2.1 ∧
        ((Emitter.run origin budget e ctx).1 = false →
          todo' = [] ∧ (Emitter.run origin budget e ctx).2.1.Finished) := by
  induction budget generalizing e ctx todo with
  | zero => exact ⟨by simp [cycles], todo, rfl, h, fun hfalse => by cases hfalse⟩
  | succ budget ih =>
    obtain ⟨hguard, todo₁, rfl, hcarried, hended⟩ := hI.cycle h origin ctx
    rw [cycles, Emitter.run]
    match hcycle : e.cycle origin ctx with
    | (.running, e', ctx') =>
      simp only [hcycle] at hcarried ⊢
      obtain ⟨hguards, todo₂, rfl, hcarried', hended'⟩ := ih hcarried ctx'
      refine ⟨List.forall_mem_cons.mpr ⟨hguard, hguards⟩, todo₂, ?_, hcarried', hended'⟩
      rw [List.flatMap_cons, List.append_assoc]
    | (.yielded, e', ctx') =>
      simp only [hcycle] at hcarried ⊢
      exact ⟨by simpa using hguard, todo₁, by simp, hcarried, fun hfalse => by cases hfalse⟩
    | (.ended, e', ctx') =>
      simp only [hcycle] at hcarried hended ⊢
      exact ⟨by simpa using hguard, todo₁, by simp, hcarried, fun _ => hended trivial⟩

theorem tick (hI : Carries σ vouched I) (h : I todo e) (owner : Vec2) (ctx : σ) :
    Advanced vouched I todo (e.entry (.tick owner ctx)) (e.tick owner ctx).2.1 := by
  have hatEnd : (e.tick owner ctx).1 = false → (e.tick owner ctx).2.1.AtEnd := atEnd_of_tick
  rw [Emitter.tick] at hatEnd
  rw [entry, Emitter.tick, tickCycles]
  split
  · exact ⟨by simp, todo, rfl, h, fun hfalse => by cases hfalse⟩
  · dsimp only
    split
    · exact ⟨by simp, todo, rfl, hI.waits h _ _, fun hfalse => by cases hfalse⟩
    · rename_i hbeats hframes
      simp only [hbeats, hframes, if_false] at hatEnd
      obtain ⟨hguards, todo', htodo, hcarried, hended⟩ :=
        hI.run (hI.waits h (e.waitFrames - 1) e.waitBeats) (e.origin owner) maxCyclesPerTick ctx
      refine ⟨hguards, todo', htodo, hcarried, fun hfalse => ?_⟩
      have hfalse := Option.some.inj hfalse
      have hlast := hatEnd hfalse
      exact ⟨(hended hfalse).1, (hended hfalse).2, hlast.waitFrames, hlast.waitBeats⟩

/-- **One call** that goes on with the program. -/
theorem call (hI : Carries σ vouched I) (h : I todo e) {c : Call σ} (hc : c.GoesOn) :
    Advanced vouched I todo (e.entry c) (e.call c) := by
  cases c with
  | load spec mirrored => exact hc.elim
  | restart owner ctx => exact hc.elim
  | tick owner ctx => exact hI.tick h owner ctx
  | beat => exact ⟨by simp [entry], todo, rfl, hI.waits h _ _, fun hfalse => by cases hfalse⟩

/-- **A session**, by induction on its calls. -/
theorem log (hI : Carries σ vouched I) (h : I todo e) {calls : List (Call σ)}
    (hcalls : ∀ c ∈ calls, c.GoesOn) :
    Enacts todo (e.log calls) ∧ ∀ r ∈ e.log calls, ∀ s ∈ r.cycles, vouched s := by
  induction calls generalizing e todo with
  | nil => exact ⟨⟨List.nil_prefix, by simp [Emitter.log]⟩, by simp [Emitter.log]⟩
  | cons c calls ih =>
    obtain ⟨hc, hcalls⟩ := List.forall_mem_cons.mp hcalls
    obtain ⟨hguard, todo', rfl, hcarried, hended⟩ := hI.call h hc
    obtain ⟨hlater, hguards⟩ := ih hcarried hcalls
    exact ⟨hlater.cons fun hfalse => ⟨(hended hfalse).1, (hended hfalse).2.log hcalls⟩,
      List.forall_mem_cons.mpr ⟨hguard, hguards⟩⟩

/-- A call that begins a program brings all of it to come, and is the first to work on it. -/
theorem begins (hI : Carries σ vouched I) {p : Program}
    (hstart : ∀ e' : Emitter, e'.AtStart p → e'.maxDepth = e.maxDepth → I todo e') {c : Call σ}
    (hc : c.Begins p e) : Advanced vouched I todo (e.entry c) (e.call c) := by
  cases c with
  | tick owner ctx => exact hc.elim
  | beat => exact hc.elim
  | load spec mirrored =>
    have hcarried : I todo (e.load spec mirrored) := hstart _ ⟨hc, rfl, rfl⟩ rfl
    exact ⟨by simp [entry], todo, rfl, hcarried, fun hfalse => by cases hfalse⟩
  | restart owner ctx =>
    have hcarried : I todo e.rewind := hstart _ ⟨hc, rfl, rfl⟩ rfl
    exact hI.tick hcarried owner ctx

/-- A session from the call that begins a program. -/
theorem session (hI : Carries σ vouched I) {p : Program}
    (hstart : ∀ e' : Emitter, e'.AtStart p → e'.maxDepth = e.maxDepth → I todo e') {c : Call σ}
    (hc : c.Begins p e) {calls : List (Call σ)} (hcalls : ∀ c ∈ calls, c.GoesOn) :
    Enacts todo (e.log (c :: calls)) ∧ ∀ r ∈ e.log (c :: calls), ∀ s ∈ r.cycles, vouched s := by
  obtain ⟨hguard, todo', rfl, hcarried, hended⟩ := hI.begins hstart hc
  obtain ⟨hlater, hguards⟩ := hI.log hcarried hcalls
  exact ⟨hlater.cons fun hfalse => ⟨(hended hfalse).1, (hended hfalse).2.log hcalls⟩,
    List.forall_mem_cons.mpr ⟨hguard, hguards⟩⟩

/-- A statement that cycles carry on holds after any calls. -/
theorem after (hI : Carries σ vouched I) (h : I todo e) {calls : List (Call σ)}
    (hcalls : ∀ c ∈ calls, c.GoesOn) : ∃ todo', I todo' (e.after calls) := by
  induction calls generalizing e todo with
  | nil => exact ⟨todo, h⟩
  | cons c calls ih =>
    obtain ⟨hc, hmore⟩ := List.forall_mem_cons.mp hcalls
    obtain ⟨-, todo', -, hcarried, -⟩ := hI.call h hc
    exact ih hcarried hmore

/-- The emitter is over when one of the calls has answered that the program has ended. -/
theorem over_of_ended (hI : Carries σ vouched I) (h : I todo e) {calls : List (Call σ)}
    {last : Call σ} (hcalls : ∀ c ∈ calls ++ [last], c.GoesOn)
    (hended : ((e.after calls).entry last).answer = some false) :
    ((e.after calls).call last).Over := by
  obtain ⟨hbefore, hlast⟩ := List.forall_mem_append.mp hcalls
  obtain ⟨todo', hcarried⟩ := hI.after h hbefore
  obtain ⟨-, todo'', -, -, hover⟩ := hI.call hcarried (hlast last List.mem_cons_self)
  exact (hover hended).2

end Carries

end Emitter

end BulletHell
