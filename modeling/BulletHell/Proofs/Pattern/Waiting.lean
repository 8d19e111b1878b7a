import BulletHell.Proofs.Pattern.Ended
import BulletHell.Proofs.Pattern.Noted

/-!
# How long a wait lasts

A wait is written down as a number of frames or of beats, and counted down by two callers that know
nothing of each other. Ticks count frames, and beats count beats. So a wait for frames must not be
shortened by a beat, and a wait for beats not by a tick, in whatever order the two come.

What a wait comes to is said of the calls behind the one that executed it. Whether a tick still has
to wait depends on the calls before it: on their number of ticks for a wait for frames, and on their
number of beats for a wait for beats. Up to the first tick that need not wait the emitter does
nothing at all. That tick goes on as if the wait had been no instruction: from the state in which
the wait was executed, one step further.

A tick counts down before it looks. So a wait for no frames at all lasts as long as one for a single
frame, while a wait for no beats is over with the next tick, which comes to the same.

## Main definitions

* `Emitter.Rests` — nothing is done during some calls
* `Emitter.RestsUntil` — nothing is done until a tick need not wait any more, and then it goes on
* `Emitter.Waits` — what a wait comes to

## Main results

* `Emitter.restsUntil_of_invariant` — how to tell, from one call to the next
* `Emitter.oneWait_after` — no emitter waits for both
* `Emitter.waits_of_mem_entry` — a wait is the last instruction of its call
* `Emitter.wait_lasts_as_written`
-/

namespace BulletHell

namespace Emitter

variable {σ : Type} [FireContext σ] {e s : Emitter}

/-! ### Resting -/

/-- The number of beats among some calls. -/
def beatsAmong (calls : List (Call σ)) : Nat :=
  calls.countP fun
    | .beat => true
    | .load _ _ | .restart _ _ | .tick _ _ => false

/-- During a call nothing is executed and nothing asked for. A tick answers that the program goes
on, and leaves its context as it was. -/
structure Idles (e : Emitter) (c : Call σ) : Prop where
  cycles : (e.entry c).cycles = []
  requests : e.requests c = []
  tick : ∀ owner ctx, c = .tick owner ctx →
    (e.tick owner ctx).1 = true ∧ (e.tick owner ctx).2.2 = ctx

/-- Nothing is done during any of some calls. -/
def Rests (e : Emitter) : List (Call σ) → Prop
  | [] => True
  | c :: calls => e.Idles c ∧ Rests (e.call c) calls

/-- The next tick goes on from a given state. -/
def Resumes (σ : Type) [FireContext σ] (e s : Emitter) : Prop :=
  ∀ owner (ctx : σ), e.tickCycles owner ctx = cycles (s.origin owner) maxCyclesPerTick s ctx ∧
    e.tick owner ctx = run (s.origin owner) maxCyclesPerTick s ctx

/-- Nothing is done until the first tick that finds the wait over, judging by the calls before it,
and this one goes on from a given state. -/
def RestsUntil (elapsed : List (Call σ) → Prop) (e s : Emitter) : Prop :=
  ∀ calls : List (Call σ), (∀ c ∈ calls, c.GoesOn) →
    (∀ before owner ctx, before ++ [.tick owner ctx] <+: calls → ¬ elapsed before) →
    e.Rests calls ∧ (elapsed calls → (e.after calls).Resumes σ s)

/-- A wait in state `s` is the last that a call executes. Behind the call nothing is done until the
wait is over. -/
structure Waits (elapsed : List (Call σ) → Prop) (e : Emitter) (c : Call σ) (s : Emitter) :
    Prop where
  last : (e.entry c).cycles.getLast? = some s
  answer : (e.entry c).answer = some true
  rests : (e.call c).RestsUntil elapsed s.advance

/-- **One call more.** Where an emitter stands behind the calls that have come while it waited may
be any statement that calls keep, as long as ticks that have to wait do nothing. -/
theorem restsUntil_of_invariant {elapsed : List (Call σ) → Prop}
    {I : List (Call σ) → Emitter → Prop}
    (hidles : ∀ {before e c}, I before e → c.GoesOn → (c.isTick = true → ¬ elapsed before) →
      e.Idles c ∧ I (before ++ [c]) (e.call c))
    (hresumes : ∀ {before e}, I before e → elapsed before → e.Resumes σ s) (h : I [] e) :
    e.RestsUntil elapsed s := by
  suffices hall : ∀ (calls before : List (Call σ)) (e : Emitter), I before e →
      (∀ c ∈ calls, c.GoesOn) →
      (∀ more owner ctx, more ++ [.tick owner ctx] <+: calls → ¬ elapsed (before ++ more)) →
      e.Rests calls ∧ (elapsed (before ++ calls) → (e.after calls).Resumes σ s) from
    fun calls hcalls hwaits => hall calls [] e h hcalls hwaits
  intro calls
  induction calls with
  | nil =>
    intro before e h _ _
    refine ⟨trivial, fun helapsed => hresumes h ?_⟩
    rwa [List.append_nil] at helapsed
  | cons c calls ih =>
    intro before e h hcalls hwaits
    obtain ⟨hc, hmore⟩ := List.forall_mem_cons.mp hcalls
    have hnow : c.isTick = true → ¬ elapsed before := by
      intro htick
      cases c with
      | tick owner ctx =>
        have hfirst := hwaits [] owner ctx ⟨calls, rfl⟩
        rwa [List.append_nil] at hfirst
      | load spec mirrored => cases htick
      | restart owner ctx => cases htick
      | beat => cases htick
    obtain ⟨hidle, hnext⟩ := hidles h hc hnow
    have hlater : ∀ more owner ctx, more ++ [.tick owner ctx] <+: calls →
        ¬ elapsed (before ++ [c] ++ more) := by
      intro more owner ctx hprefix
      rw [List.append_assoc]
      exact hwaits (c :: more) owner ctx ((List.prefix_cons_inj c).mpr hprefix)
    obtain ⟨hrests, hgoes⟩ := ih (before ++ [c]) (e.call c) hnext hmore hlater
    refine ⟨⟨hidle, hrests⟩, fun helapsed => hgoes ?_⟩
    rwa [List.append_assoc]

/-! ### Ticks that wait, and ticks that do not -/

theorem idles_beat (e : Emitter) : e.Idles (.beat : Call σ) :=
  ⟨rfl, rfl, fun _ _ hbeat => by cases hbeat⟩

/-- A tick that waits does nothing else. -/
theorem idles_tick (h : 0 < e.waitBeats ∨ e.waitBeats = 0 ∧ 1 < e.waitFrames) (owner : Vec2)
    (ctx : σ) : e.Idles (.tick owner ctx) := by
  have hcycles : e.tickCycles owner ctx = [] := by
    rw [tickCycles]
    rcases h with hbeats | ⟨hbeats, hframes⟩
    · exact if_pos hbeats
    · rw [if_neg (by omega)]
      exact if_pos (show 0 < e.waitFrames - 1 by omega)
  have hsilent : ∀ {τ : Type} [FireContext τ] (ctx : τ),
      ∃ e', e.tick owner ctx = (true, e', ctx) := by
    intro τ _ ctx
    rcases h with hbeats | ⟨hbeats, hframes⟩
    · exact ⟨_, tick_of_waitBeats hbeats owner ctx⟩
    · exact ⟨_, tick_of_waitFrames hbeats hframes owner ctx⟩
  obtain ⟨e', htick⟩ := hsilent ctx
  obtain ⟨e'', hnoted⟩ := hsilent (Noted.blank ctx)
  refine ⟨hcycles, ?_, ?_⟩
  · rw [requests, hnoted, Noted.blank]
  · intro owner' ctx' heq
    obtain ⟨rfl, rfl⟩ := Call.tick.inj heq
    rw [htick]
    exact ⟨rfl, rfl⟩

/-- A tick that does not wait runs, and no wait is pending then. -/
theorem tickCycles_of_ready (h : e.waitBeats = 0) (hframes : e.waitFrames ≤ 1) (owner : Vec2)
    (ctx : σ) : e.tickCycles owner ctx =
      cycles (e.origin owner) maxCyclesPerTick { e with waitFrames := 0 } ctx := by
  have hwaited : e.waitFrames - 1 = 0 := by omega
  rw [tickCycles, if_neg (by omega), hwaited]
  exact if_neg (Nat.lt_irrefl 0)

theorem resumes_of_ready (h : e.waitBeats = 0) (hframes : e.waitFrames ≤ 1) :
    e.Resumes σ { e with waitFrames := 0 } :=
  fun owner ctx => ⟨tickCycles_of_ready h hframes owner ctx, tick_of_ready h hframes owner ctx⟩

/-! ### The two waits -/

/-- **A wait for frames.** Beats make no difference to it. -/
theorem restsUntil_frames (hframes : s.waitFrames = 0) (hbeats : s.waitBeats = 0) (n : Nat) :
    RestsUntil (σ := σ) (fun before => max 1 n ≤ ticksAmong before + 1)
      { s with waitFrames := n } s := by
  refine restsUntil_of_invariant
    (I := fun before e => e = { s with waitFrames := n - ticksAmong before }) ?_ ?_ rfl
  · rintro before _ c rfl hc hwaits
    cases c with
    | load spec mirrored => exact hc.elim
    | restart owner ctx => exact hc.elim
    | beat =>
      have hcount : ticksAmong (before ++ [.beat]) = ticksAmong before := by
        simp [ticksAmong, Call.isTick]
      refine ⟨idles_beat _, ?_⟩
      rw [hcount]
      simp [call, onBeat, hbeats]
    | tick owner ctx =>
      have hcount : ticksAmong (before ++ [.tick owner ctx]) = ticksAmong before + 1 := by
        simp [ticksAmong, Call.isTick]
      have hleft : 1 < n - ticksAmong before := by
        have := hwaits rfl
        omega
      let waiting : Emitter := { s with waitFrames := n - ticksAmong before }
      have hwaiting : waiting.waitBeats = 0 ∧ 1 < waiting.waitFrames := ⟨hbeats, hleft⟩
      refine ⟨idles_tick (.inr hwaiting) owner ctx, ?_⟩
      rw [hcount, call, tick_of_waitFrames hwaiting.1 hwaiting.2, Nat.sub_sub]
  · rintro before _ rfl helapsed
    have hspent : n - ticksAmong before ≤ 1 := by omega
    have hready := resumes_of_ready (σ := σ) (e := { s with waitFrames := n - ticksAmong before })
      hbeats hspent
    rwa [show ({ s with waitFrames := 0 } : Emitter) = s by rw [← hframes]] at hready

/-- **A wait for beats.** Ticks make no difference to it. -/
theorem restsUntil_beats (hframes : s.waitFrames = 0) (hbeats : s.waitBeats = 0) (n : Nat) :
    RestsUntil (σ := σ) (fun before => n ≤ beatsAmong before) { s with waitBeats := n } s := by
  refine restsUntil_of_invariant
    (I := fun before e => e = { s with waitBeats := n - beatsAmong before }) ?_ ?_ rfl
  · rintro before _ c rfl hc hwaits
    cases c with
    | load spec mirrored => exact hc.elim
    | restart owner ctx => exact hc.elim
    | beat =>
      have hcount : beatsAmong (before ++ [.beat]) = beatsAmong before + 1 := by
        simp [beatsAmong]
      refine ⟨idles_beat _, ?_⟩
      rw [hcount, call, onBeat, Nat.sub_sub]
    | tick owner ctx =>
      have hcount : beatsAmong (before ++ [.tick owner ctx]) = beatsAmong before := by
        simp [beatsAmong]
      have hleft : 0 < n - beatsAmong before := by
        have := hwaits rfl
        omega
      refine ⟨idles_tick (.inl hleft) owner ctx, ?_⟩
      rw [hcount, call, tick_of_waitBeats hleft]
  · rintro before _ rfl helapsed
    have hspent : n - beatsAmong before = 0 := by omega
    have hsame : ({ s with waitBeats := n - beatsAmong before } : Emitter) = s := by
      rw [hspent, ← hbeats]
    rw [hsame]
    have hready := resumes_of_ready (σ := σ) hbeats (by omega : s.waitFrames ≤ 1)
    rwa [show ({ s with waitFrames := 0 } : Emitter) = s by rw [← hframes]] at hready

/-! ### The instructions that wait -/

/-- No more than one of the two waits is pending. -/
def OneWait (e : Emitter) : Prop :=
  e.waitFrames = 0 ∨ e.waitBeats = 0

theorem oneWait_cycle (hframes : e.waitFrames = 0) (hbeats : e.waitBeats = 0) (origin : Vec2)
    (ctx : σ) : (e.cycle origin ctx).2.1.OneWait := by
  by_cases hflow : (e.cycle origin ctx).1 = .yielded
  · cases hnext : e.next? with
    | none =>
      obtain ⟨repeats, counter, heq⟩ := e.exists_endOfProgram_eq
      rw [cycle_of_next?_eq_none hnext, heq]
      exact .inl hframes
    | some i =>
      rw [cycle_of_next? hnext] at hflow ⊢
      cases i with
      | fire => exact .inl hframes
      | waitFrames frames => exact .inr hbeats
      | waitBeats beats => exact .inl hframes
      | _ => cases hflow
  · exact .inl ((waits_cycle e origin ctx hflow).1.trans hframes)

theorem oneWait_run (hframes : e.waitFrames = 0) (hbeats : e.waitBeats = 0) (origin : Vec2)
    (budget : Nat) (ctx : σ) : (run origin budget e ctx).2.1.OneWait := by
  induction budget generalizing e ctx with
  | zero => exact .inl hframes
  | succ budget ih =>
    have hone := oneWait_cycle hframes hbeats origin ctx
    have hwaits := waits_cycle e origin ctx
    rw [run]
    rcases hcycle : e.cycle origin ctx with ⟨flow, e', ctx'⟩
    cases flow with
    | running =>
      simp only [hcycle] at hwaits ⊢
      obtain ⟨hframes', hbeats'⟩ := hwaits (by simp)
      exact ih (hframes'.trans hframes) (hbeats'.trans hbeats) ctx'
    | yielded => rwa [hcycle] at hone
    | ended => rwa [hcycle] at hone

theorem oneWait_tick (h : e.OneWait) (owner : Vec2) (ctx : σ) :
    (e.tick owner ctx).2.1.OneWait := by
  rcases e.tick_cases owner ctx with ⟨-, htick⟩ | ⟨hbeats, -, htick⟩ | ⟨hbeats, -, htick⟩
  · rw [htick]
    exact h
  · rw [htick]
    exact .inr hbeats
  · rw [htick]
    exact oneWait_run (e := { e with waitFrames := 0 }) rfl hbeats _ _ _

theorem oneWait_call (h : e.OneWait) (c : Call σ) : (e.call c).OneWait := by
  cases c with
  | load spec mirrored => exact .inl rfl
  | restart owner ctx => exact oneWait_tick (e := e.rewind) (.inl rfl) owner ctx
  | tick owner ctx => exact oneWait_tick h owner ctx
  | beat => exact h.imp id fun hbeats => show e.waitBeats - 1 = 0 by omega

/-- **The two waits** are never pending together, whatever is done with an emitter. -/
theorem oneWait_after (h : e.OneWait) (calls : List (Call σ)) : (e.after calls).OneWait :=
  List.foldlRecOn calls call h fun _ h c _ => oneWait_call h c

/-- Every cycle of a run begins with no wait pending. One that yields, whatever surrounds it, is the
last. -/
theorem of_mem_cycles {origin : Vec2} {budget : Nat} {ctx : σ} (hs : s ∈ cycles origin budget e ctx)
    (hframes : e.waitFrames = 0) (hbeats : e.waitBeats = 0) :
    s.waitFrames = 0 ∧ s.waitBeats = 0 ∧
      ∀ s', (∀ ctx : σ, s.cycle origin ctx = (.yielded, s', ctx)) →
        (cycles origin budget e ctx).getLast? = some s ∧
          ∃ ctx', run origin budget e ctx = (true, s', ctx') := by
  induction budget generalizing e ctx with
  | zero => cases hs
  | succ budget ih =>
    have hwaits := waits_cycle e origin ctx
    rw [cycles] at hs
    rw [cycles, run]
    rcases hcycle : e.cycle origin ctx with ⟨flow, e', ctx'⟩
    cases flow with
    | running =>
      simp only [hcycle] at hs hwaits ⊢
      rcases List.mem_cons.mp hs with rfl | hs
      · refine ⟨hframes, hbeats, fun s' hyields => ?_⟩
        cases (hyields ctx).symm.trans hcycle
      · obtain ⟨hframes', hbeats'⟩ := hwaits (by simp)
        obtain ⟨hframes', hbeats', hlast⟩ := ih hs (hframes'.trans hframes) (hbeats'.trans hbeats)
        refine ⟨hframes', hbeats', fun s' hyields => ?_⟩
        obtain ⟨hlast, hrun⟩ := hlast s' hyields
        exact ⟨by rw [List.getLast?_cons, hlast]; rfl, hrun⟩
    | yielded =>
      simp only [hcycle] at hs ⊢
      obtain rfl := List.mem_singleton.mp hs
      refine ⟨hframes, hbeats, fun s' hyields => ⟨rfl, ctx', ?_⟩⟩
      cases (hyields ctx).symm.trans hcycle
      rfl
    | ended =>
      simp only [hcycle] at hs ⊢
      obtain rfl := List.mem_singleton.mp hs
      refine ⟨hframes, hbeats, fun s' hyields => ?_⟩
      cases (hyields ctx).symm.trans hcycle

/-- The same of a tick. -/
theorem of_mem_tickCycles {owner : Vec2} {ctx : σ} (hs : s ∈ e.tickCycles owner ctx) :
    s.waitFrames = 0 ∧ s.waitBeats = 0 ∧
      ∀ s', (∀ origin (ctx : σ), s.cycle origin ctx = (.yielded, s', ctx)) →
        (e.tickCycles owner ctx).getLast? = some s ∧
          ∃ ctx', e.tick owner ctx = (true, s', ctx') := by
  by_cases hwaiting : 0 < e.waitBeats ∨ e.waitBeats = 0 ∧ 1 < e.waitFrames
  · have hnone : e.tickCycles owner ctx = [] := (idles_tick hwaiting owner ctx).cycles
    rw [hnone] at hs
    cases hs
  · have hbeats : e.waitBeats = 0 := by omega
    have hframes : e.waitFrames ≤ 1 := by omega
    rw [tickCycles_of_ready hbeats hframes] at hs ⊢
    rw [tick_of_ready hbeats hframes]
    obtain ⟨hframes, hbeats, hlast⟩ := of_mem_cycles hs rfl hbeats
    exact ⟨hframes, hbeats, fun s' hyields => hlast s' fun ctx => hyields _ ctx⟩

/-- And of a call. -/
theorem of_mem_entry {c : Call σ} (hs : s ∈ (e.entry c).cycles) :
    s.waitFrames = 0 ∧ s.waitBeats = 0 ∧
      ∀ s', (∀ origin (ctx : σ), s.cycle origin ctx = (.yielded, s', ctx)) →
        (e.entry c).cycles.getLast? = some s ∧ (e.entry c).answer = some true ∧ e.call c = s' := by
  have htick : ∀ {e : Emitter} {owner} {ctx : σ}, s ∈ e.tickCycles owner ctx →
      s.waitFrames = 0 ∧ s.waitBeats = 0 ∧
        ∀ s', (∀ origin (ctx : σ), s.cycle origin ctx = (.yielded, s', ctx)) →
          (e.tickCycles owner ctx).getLast? = some s ∧ some (e.tick owner ctx).1 = some true ∧
            (e.tick owner ctx).2.1 = s' := by
    intro e owner ctx hs
    obtain ⟨hframes, hbeats, hlast⟩ := of_mem_tickCycles hs
    refine ⟨hframes, hbeats, fun s' hyields => ?_⟩
    obtain ⟨hlast, ctx', heq⟩ := hlast s' hyields
    rw [heq]
    exact ⟨hlast, rfl, rfl⟩
  cases c with
  | load spec mirrored => cases hs
  | beat => cases hs
  | tick owner ctx => exact htick hs
  | restart owner ctx => exact htick (e := e.rewind) hs

/-- A cycle that leaves a wait behind is the last of its call, and how long it is waited for is a
matter of the calls that follow. -/
theorem waits_of_mem_entry {elapsed : List (Call σ) → Prop} {c : Call σ} {s' : Emitter}
    (hs : s ∈ (e.entry c).cycles)
    (hyields : ∀ origin (ctx : σ), s.cycle origin ctx = (.yielded, s', ctx))
    (hrests : s.waitFrames = 0 → s.waitBeats = 0 → s'.RestsUntil elapsed s.advance) :
    e.Waits elapsed c s := by
  obtain ⟨hframes, hbeats, hlast⟩ := of_mem_entry hs
  obtain ⟨hlast, hanswer, hcall⟩ := hlast s' hyields
  refine ⟨hlast, hanswer, ?_⟩
  rw [hcall]
  exact hrests hframes hbeats

/-- **Waits last as long as they are written**, whatever was done with the emitter before. A wait
for `n` frames is over with the `n`-th tick behind it, but not before the first; one for `k` beats
is over with the first tick that `k` beats have come before. Until then nothing is executed and no
shot is asked for, and ticks answer that the program goes on. No emitter ever waits for both. -/
theorem wait_lasts_as_written (maxDepth : Nat) (history : List (Call σ)) :
    let e := (idle maxDepth).after history
    (e.waitFrames = 0 ∨ e.waitBeats = 0) ∧
      ∀ (c : Call σ) (s : Emitter), s ∈ (e.entry c).cycles →
        (∀ n, s.next? = some (.waitFrames n) →
          e.Waits (fun before => max 1 n ≤ ticksAmong before + 1) c s) ∧
        ∀ k, s.next? = some (.waitBeats k) → e.Waits (fun before => k ≤ beatsAmong before) c s := by
  refine ⟨oneWait_after (.inl rfl) history, fun c s hs => ⟨fun n hnext => ?_, fun k hnext => ?_⟩⟩
  · exact waits_of_mem_entry hs (fun origin ctx => cycle_of_next? hnext origin ctx)
      fun hframes hbeats => restsUntil_frames (s := s.advance) hframes hbeats n
  · exact waits_of_mem_entry hs (fun origin ctx => cycle_of_next? hnext origin ctx)
      fun hframes hbeats => restsUntil_beats (s := s.advance) hframes hbeats k

/-- A wait for frames in front of one for beats, twice over. -/
def twoWaits : List Instruction :=
  [.repeatStart 2, .waitFrames 3, .waitBeats 1, .fire, .repeatEnd]

/-- The program is loaded. -/
def twoWaitsCalls : List (Call FireControl) :=
  [.load ⟨Vec2.zero, ⟨0⟩, 1, ⟨twoWaits⟩⟩ false]

/-- In front of the first wait. -/
def twoWaitsFirst : Emitter :=
  ((idle 8).after twoWaitsCalls).repeatStart 2

/-- Two ticks behind the first wait do nothing, with any number of beats between them, and the third
one goes on to the second wait. -/
theorem wait_lasts_as_written_of_twoWaits :
    let tick : Call FireControl := .tick Vec2.zero .emptySky
    (((idle 8).after twoWaitsCalls).call tick).Rests [.beat, tick, .beat, .beat, tick] ∧
      ((((idle 8).after twoWaitsCalls).call tick).after
        [.beat, tick, .beat, .beat, tick]).Resumes FireControl twoWaitsFirst.advance := by
  intro tick
  have hmem : twoWaitsFirst ∈ (((idle 8).after twoWaitsCalls).entry tick).cycles := by
    show twoWaitsFirst ∈ [(idle 8).after twoWaitsCalls, twoWaitsFirst]
    exact List.mem_cons_of_mem _ List.mem_cons_self
  have hwaits := ((wait_lasts_as_written 8 twoWaitsCalls).2 tick twoWaitsFirst hmem).1 3 rfl
  have hcalls : ∀ c ∈ [.beat, tick, .beat, .beat, tick], c.GoesOn := by
    simp [tick, Call.GoesOn]
  have hearlier : ∀ before owner ctx,
      before ++ [.tick owner ctx] <+: [.beat, tick, .beat, .beat, tick] →
        ¬ max 1 3 ≤ ticksAmong before + 1 := by
    intro before owner ctx hprefix
    have hcount : ticksAmong (before ++ [.tick owner ctx]) ≤ 2 := hprefix.sublist.countP_le
    rw [ticksAmong, List.countP_append] at hcount
    have hone : List.countP Call.isTick [.tick owner ctx] = 1 := rfl
    rw [ticksAmong]
    omega
  obtain ⟨hrests, hresumes⟩ := hwaits.rests _ hcalls hearlier
  exact ⟨hrests, hresumes (by decide)⟩

/-- The fourth tick executes the second wait, and the first one behind a beat fires. -/
example :
    let tick : Call FireControl := .tick Vec2.zero .emptySky
    (((idle 8).after twoWaitsCalls).log [tick, .beat, tick, tick, tick, tick, .beat, tick]).map
        (fun r => (r.answer, r.executed)) =
      [(some true, [.waitFrames 3]), (none, []), (some true, []), (some true, []),
        (some true, [.waitBeats 1]), (some true, []), (none, []), (some true, [.fire])] :=
  rfl

end Emitter

end BulletHell
