import BulletHell.Proofs.Pattern.Passing

/-!
# Loops that a program leaves open

The end of a program closes one loop, and a tick that finds the last turn of that loop over answers
that the program has ended. It says nothing of the loops around it. They stay open, at the end of
the program, and it is the next tick that closes the next of them. As long as these loops are in
their last turns too, every tick closes one and answers the same, and when they are used up nothing
happens any more. But a loop that has turns left is taken up again.

So an owner that goes on ticking, because other emitters of it are still running, may see a program
run on that has ended. The strict check prevents it, as it lets no more than one loop be open at the
end, and it does so whatever room there is for open loops: brackets that are passed over for want of
room leave no more loops open.

## Main definitions

* `Emitter.JustEnded` — a session of a program has just been answered that the program has ended
* `Emitter.StaysEnded` — every tick answers that the program has ended, and asks for nothing

## Main results

* `Emitter.AtEnd.tick_of_spent`, `Emitter.AtEnd.tick_of_turns` — a tick at the end of a program
* `Emitter.AtEnd.staysEnded` — a number of calls there
* `Emitter.ended_until_a_loop_has_turns`
-/

namespace BulletHell

namespace Emitter

variable {σ : Type} [FireContext σ] {e : Emitter}

/-! ### Sessions -/

/-- A program is begun, and then gone on with. -/
def IsSession (p : Program) (e : Emitter) : List (Call σ) → Prop
  | [] => False
  | c :: calls => c.Begins p e ∧ ∀ c ∈ calls, c.GoesOn

/-- A session of the program, and with its last call the answer that the program has ended. -/
inductive JustEnded (σ : Type) [FireContext σ] (p : Program) : Emitter → Prop
  | answered {e : Emitter} {calls : List (Call σ)} {last : Call σ}
      (hsession : IsSession p e (calls ++ [last]))
      (hended : ((e.after calls).entry last).answer = some false) :
      JustEnded σ p ((e.after calls).call last)

def Call.isTick : Call σ → Bool
  | .tick _ _ => true
  | .load _ _ | .restart _ _ | .beat => false

/-- The number of ticks among some calls. -/
def ticksAmong (calls : List (Call σ)) : Nat :=
  calls.countP Call.isTick

/-- Every tick answers that the program has ended, and leaves its context as it was. -/
def StaysEnded (e : Emitter) : List (Call σ) → Prop
  | [] => True
  | c :: calls =>
    (∀ owner ctx, c = .tick owner ctx →
      (e.tick owner ctx).1 = false ∧ (e.tick owner ctx).2.2 = ctx) ∧ StaysEnded (e.call c) calls

/-! ### At the end of a program -/

/-- **A call that answers that the program has ended** leaves the emitter at its end. -/
theorem JustEnded.atEnd {p : Program} (h : JustEnded σ p e) : e.AtEnd := by
  obtain @⟨e, calls, last, -, hended⟩ := h
  cases last with
  | load spec mirrored => cases hended
  | beat => cases hended
  | tick owner ctx => exact atEnd_of_tick (Option.some.inj hended)
  | restart owner ctx => exact atEnd_of_tick (e := (e.after calls).rewind) (Option.some.inj hended)

/-- The innermost of some loops is taken up again. -/
def resumed (e : Emitter) (frame : RepeatFrame) (rest : List RepeatFrame) : Emitter :=
  { e with repeats := { frame with remaining := frame.remaining - 1 } :: rest,
           counter := frame.start }

/-- A loop in its last turn is closed, and the program has ended. -/
theorem AtEnd.tick_of_spent (h : e.AtEnd) (hspent : ∀ frame ∈ e.repeats.head?, frame.remaining ≤ 1)
    (owner : Vec2) (ctx : σ) :
    e.tick owner ctx = (false, { e with repeats := e.repeats.tail }, ctx) := by
  have hcycle : e.cycle (e.origin owner) ctx =
      (.ended, { e with repeats := e.repeats.tail }, ctx) := by
    cases hrepeats : e.repeats with
    | nil =>
      rw [Finished.cycle ⟨h.next?, hrepeats⟩, List.tail_nil, ← hrepeats]
    | cons frame rest =>
      have hlast : ¬ 1 < frame.remaining := Nat.not_lt.mpr (hspent frame (by rw [hrepeats]; rfl))
      rw [cycle_of_next?_eq_none h.next?, endOfProgram_eq hrepeats, if_neg hlast, List.tail_cons]
  rw [(h.tick owner ctx).1, maxCyclesPerTick, run, hcycle]

/-- **A loop that has turns left** is taken up again in the same tick. -/
theorem AtEnd.tick_of_turns (h : e.AtEnd) {frame : RepeatFrame} {rest : List RepeatFrame}
    (hrepeats : e.repeats = frame :: rest) (hturns : 1 < frame.remaining) (owner : Vec2) (ctx : σ) :
    e.tick owner ctx = run (e.origin owner) (maxCyclesPerTick - 1) (e.resumed frame rest) ctx := by
  have hcycle : e.cycle (e.origin owner) ctx = (.running, e.resumed frame rest, ctx) := by
    rw [cycle_of_next?_eq_none h.next?, endOfProgram_eq hrepeats, if_pos hturns, resumed]
  rw [(h.tick owner ctx).1, maxCyclesPerTick, run, hcycle]

/-- **A number of calls.** Each tick closes a loop, as long as these are in their last turns. -/
theorem AtEnd.staysEnded (h : e.AtEnd) {calls : List (Call σ)} (hcalls : ∀ c ∈ calls, c.GoesOn)
    (hspent : ∀ frame ∈ e.repeats.take (ticksAmong calls), frame.remaining ≤ 1) :
    StaysEnded e calls ∧
      e.after calls = { e with repeats := e.repeats.drop (ticksAmong calls) } := by
  induction calls generalizing e with
  | nil => exact ⟨trivial, rfl⟩
  | cons c calls ih =>
    obtain ⟨hc, hmore⟩ := List.forall_mem_cons.mp hcalls
    cases c with
    | load spec mirrored => exact hc.elim
    | restart owner ctx => exact hc.elim
    | beat =>
      have hsame : e.call (.beat : Call σ) = e := h.onBeat
      obtain ⟨hlater, hafter⟩ := ih h hmore hspent
      refine ⟨⟨fun _ _ hbeat => (by cases hbeat), ?_⟩, ?_⟩
      · rw [hsame]
        exact hlater
      · show (e.call (.beat : Call σ)).after calls = _
        rw [hsame]
        exact hafter
    | tick owner ctx =>
      have hcount : ticksAmong (.tick owner ctx :: calls) = ticksAmong calls + 1 :=
        List.countP_cons_of_pos rfl
      rw [hcount] at hspent ⊢
      -- the loop that this tick closes, and those that the later ones may close
      have hfirst : ∀ frame ∈ e.repeats.head?, frame.remaining ≤ 1 := by
        intro frame hframe
        obtain ⟨rest, hrepeats⟩ := List.head?_eq_some_iff.mp hframe
        exact hspent frame (by rw [hrepeats, List.take_succ_cons]; exact List.mem_cons_self)
      have hrest : ∀ frame ∈ e.repeats.tail.take (ticksAmong calls), frame.remaining ≤ 1 := by
        intro frame hframe
        refine hspent frame ?_
        cases hrepeats : e.repeats with
        | nil => rw [hrepeats] at hframe; simp at hframe
        | cons first rest =>
          rw [hrepeats] at hframe
          exact List.mem_cons_of_mem _ hframe
      have htick := fun owner (ctx : σ) => h.tick_of_spent hfirst owner ctx
      have hcall : e.call (.tick owner ctx) = { e with repeats := e.repeats.tail } := by
        rw [call, htick]
      have hatEnd : AtEnd { e with repeats := e.repeats.tail } :=
        ⟨h.next?, h.waitFrames, h.waitBeats⟩
      obtain ⟨hlater, hafter⟩ := ih hatEnd hmore hrest
      refine ⟨⟨fun owner ctx _ => by rw [htick]; exact ⟨rfl, rfl⟩, ?_⟩, ?_⟩
      · rw [hcall]
        exact hlater
      · show (e.call (.tick owner ctx)).after calls = _
        rw [hcall, hafter, List.drop_tail]

/-! ### Programs that leave no loop open -/

/-- A program that the strict check has nothing to say against is over when it has ended, whatever
room there is for open loops. -/
theorem JustEnded.over {bound : Nat} {p : Program}
    (hvalid : Program.validate bound p.instructions = .ok ()) (h : JustEnded σ p e) : e.Over := by
  obtain @⟨e, calls, last, hsession, hended⟩ := h
  obtain ⟨o, hread, hfits⟩ := Outline.exists_of_tidy hvalid e.maxDepth
  have hflat := Outline.flatten_of_read? hread
  have hstart : ∀ e' : Emitter, e'.AtStart p → e'.maxDepth = e.maxDepth →
      e'.AwaitsTidied o.unfolding := fun e' hstart hroom =>
    hstart.awaitsTidied hvalid (hroom ▸ hflat) (hroom ▸ hfits)
  cases calls with
  | nil =>
    obtain ⟨-, todo, -, -, hover⟩ := carries_awaitsTidied.begins hstart hsession.1
    exact (hover hended).2
  | cons first calls =>
    obtain ⟨hfirst, hcalls⟩ := hsession
    obtain ⟨-, todo, -, hcarried, -⟩ := carries_awaitsTidied.begins hstart hfirst
    exact carries_awaitsTidied.over_of_ended hcarried hcalls hended

/-- **An ended program** answers nothing else as long as the loops that it has left open are in
their last turns; each tick closes one of them. But the first of them that has turns left is taken
up again, by a tick like any other. No loop is open in a program that the strict check has nothing
to say against. -/
theorem ended_until_a_loop_has_turns {p : Program} (h : JustEnded σ p e) {calls : List (Call σ)}
    (hcalls : ∀ c ∈ calls, c.GoesOn) :
    ((∀ frame ∈ e.repeats.take (ticksAmong calls), frame.remaining ≤ 1) →
      StaysEnded e calls ∧
        ∀ frame rest, e.repeats.drop (ticksAmong calls) = frame :: rest → 1 < frame.remaining →
          ∀ owner (ctx : σ), (e.after calls).tick owner ctx =
            run (e.origin owner) (maxCyclesPerTick - 1) (e.resumed frame rest) ctx) ∧
      ((∃ bound, Program.validate bound p.instructions = .ok ()) → StaysEnded e calls) := by
  constructor
  · intro hspent
    obtain ⟨hstays, hafter⟩ := h.atEnd.staysEnded hcalls hspent
    refine ⟨hstays, fun frame rest hopen hturns owner ctx => ?_⟩
    have hatEnd : AtEnd { e with repeats := e.repeats.drop (ticksAmong calls) } :=
      ⟨h.atEnd.next?, h.atEnd.waitFrames, h.atEnd.waitBeats⟩
    rw [hafter]
    exact hatEnd.tick_of_turns hopen hturns owner ctx
  · rintro ⟨bound, hvalid⟩
    have hclosed : e.repeats = [] := (h.over hvalid).1.2
    refine (h.atEnd.staysEnded hcalls fun frame hframe => ?_).1
    rw [hclosed, List.take_nil] at hframe
    cases hframe

/-- A loop with two turns, around others that are left open as well. -/
def openLoops : List Instruction :=
  [.repeatStart 2, .fire, .repeatStart 1, .offsetAngle 10, .repeatStart 1]

/-- The program is loaded, and ticked for the first time. -/
def openLoopsCalls : List (Call FireControl) :=
  [.load ⟨Vec2.zero, ⟨0⟩, 1, ⟨openLoops⟩⟩ false, .tick Vec2.zero .emptySky]

/-- The emitter behind the second tick. -/
def openLoopsEnded : Emitter :=
  ((idle 8).after openLoopsCalls).call (.tick Vec2.zero FireControl.emptySky)

/-- The second tick and the third one answer that the program has ended, and each closes one of the
inner loops. The fourth one takes up the outer loop and fires again. -/
theorem ended_until_a_loop_has_turns_of_openLoops :
    StaysEnded openLoopsEnded [.beat, .tick Vec2.zero FireControl.emptySky] ∧
      (openLoopsEnded.after [.beat, .tick Vec2.zero FireControl.emptySky]).tick Vec2.zero
          FireControl.emptySky =
        run (openLoopsEnded.origin Vec2.zero) (maxCyclesPerTick - 1)
          (openLoopsEnded.resumed ⟨1, none, 2⟩ []) FireControl.emptySky ∧
      (openLoopsEnded.log [.beat, .tick Vec2.zero FireControl.emptySky,
          .tick Vec2.zero .emptySky]).map (fun r => (r.answer, r.executed)) =
        [(none, []), (some false, []), (some true, [.fire])] := by
  have hsession : IsSession ⟨openLoops⟩ (idle 8)
      (openLoopsCalls ++ [.tick Vec2.zero .emptySky]) := by
    simp [IsSession, openLoopsCalls, Call.Begins, Call.GoesOn]
  have hended : JustEnded FireControl ⟨openLoops⟩ openLoopsEnded := .answered hsession rfl
  have hcalls : ∀ c ∈ [Call.beat, .tick Vec2.zero FireControl.emptySky], c.GoesOn := by
    simp [Call.GoesOn]
  have hspent : ∀ frame ∈ openLoopsEnded.repeats.take 1, frame.remaining ≤ 1 := by
    show ∀ frame ∈ [(⟨3, none, 1⟩ : RepeatFrame)], frame.remaining ≤ 1
    simp
  obtain ⟨hstays, htaken⟩ := (ended_until_a_loop_has_turns hended hcalls).1 hspent
  exact ⟨hstays, htaken ⟨1, none, 2⟩ [] rfl (by decide) Vec2.zero .emptySky, rfl⟩

end Emitter

end BulletHell
