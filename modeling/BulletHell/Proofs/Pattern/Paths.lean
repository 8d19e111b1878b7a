import BulletHell.Proofs.Pattern.Unfolding

/-!
# Ways through a program

Where an emitter goes from an instruction is decided by the place of that instruction and by the
loops that are open. Angles, modes and waits have no say in it, nor has the context, nor the tick in
which the cycle is run. So the way of an emitter through its program is a path between stances, and
it is the same path for every emitter and in every session.

Paths are made where the program has its structure: a block has one from its beginning to its end,
by induction on the block, and a loop has one for each of its turns. No invariant is needed that
ties the frames on the stack to the brackets around the counter, as `Follows` does, since the frames
below those of the block stay as they are. A path is used from its beginning: each cycle goes one
step of it, and that is all that a session needs to know.

## Loops without turns

The strict check refuses a loop without turns. Where it is not made, the interpreter finds out that
a loop has no turn left only at its end, so the body has been run once by then. What such a program
stands for is its `laxUnfolding`.

## Main definitions

* `Stance`, `Emitter.Moves`, `Emitter.Leads` — places with open loops, steps and paths
* `Block.laxUnfolding` — what a block stands for without the strict check
* `Block.Apart`, `Block.nesting` — no loop begins with another one; how deep loops nest

## Main results

* `Emitter.leads_turns` — the end of a loop, with all the turns that are left
* `Emitter.leads_block` — a block
* `Emitter.enacts_of_leads` — from a path to a session
-/

namespace BulletHell

/-! ### Blocks without the strict check -/

namespace Block

/-- What a block stands for if a loop without turns runs its body once all the same. -/
def laxUnfolding : Block → List Instruction
  | nil => []
  | op i _ next => i :: next.laxUnfolding
  | loop times body next => copies (max times 1) body.laxUnfolding ++ next.laxUnfolding

/-- No loop begins with another one. -/
def Apart : Block → Prop
  | nil => True
  | op _ _ next => next.Apart
  | loop _ body next => (body.opensLoop = false ∧ body.Apart) ∧ next.Apart

/-- The most loops that are open at any place. -/
def nesting : Block → Nat
  | nil => 0
  | op _ _ next => next.nesting
  | loop _ body next => max (body.nesting + 1) next.nesting

/-- For loops that have turns this is the unfolding. -/
theorem laxUnfolding_of_fits {limit : Nat} {b : Block} (h : b.Fits limit) :
    b.laxUnfolding = b.unfolding := by
  induction b generalizing limit with
  | nil => rfl
  | op i plain next ih => rw [laxUnfolding, unfolding, ih h]
  | loop times body next ihBody ihNext =>
    obtain ⟨⟨-, htimes, -, hbody⟩, hnext⟩ := h
    rw [laxUnfolding, unfolding, Nat.max_eq_left htimes, ihBody hbody, ihNext hnext]

end Block

/-! ### Stances and paths -/

/-- A place of a program, with the loops that are open there, innermost first. -/
structure Stance where
  place : Nat
  frames : List RepeatFrame

namespace Emitter

/-- The emitter runs the program with room for `limit` open loops, and has got there. -/
structure IsAt (p : Program) (limit : Nat) (s : Stance) (e : Emitter) : Prop where
  program : e.program = p
  maxDepth : e.maxDepth = limit
  counter : e.counter = s.place
  repeats : e.repeats = s.frames

section Paths

variable (σ : Type) [FireContext σ] (p : Program) (limit : Nat)

/-- Every emitter at the first stance gets to the second one by a cycle, in which it executes these
instructions, brackets left out. -/
def Moves (s : Stance) (done : List Instruction) (s' : Stance) : Prop :=
  ∀ e : Emitter, e.IsAt p limit s → ∀ (origin : Vec2) (ctx : σ),
    e.nextPlain = done ∧ (e.cycle origin ctx).1 ≠ .ended ∧
      (e.cycle origin ctx).2.1.IsAt p limit s'

/-- A path from one stance to another, with the instructions that are executed on it. -/
inductive Leads : Stance → List Instruction → Stance → Prop
  | refl (s : Stance) : Leads s [] s
  | head {s s' s'' : Stance} {done rest : List Instruction} (first : Moves σ p limit s done s')
      (later : Leads s' rest s'') : Leads s (done ++ rest) s''

variable {σ p limit} {s s' s'' : Stance} {done rest : List Instruction}

theorem Moves.leads (h : Moves σ p limit s done s') : Leads σ p limit s done s' := by
  have hpath := Leads.head h (.refl s')
  rwa [List.append_nil] at hpath

theorem Leads.trans (h : Leads σ p limit s done s') (h' : Leads σ p limit s' rest s'') :
    Leads σ p limit s (done ++ rest) s'' := by
  induction h with
  | refl => exact h'
  | head first later ih =>
    rw [List.append_assoc]
    exact .head first (ih h')

/-- Nothing is executed on the first part. -/
theorem Leads.trans_silent (h : Leads σ p limit s [] s') (h' : Leads σ p limit s' rest s'') :
    Leads σ p limit s rest s'' :=
  h.trans h'

/-- Nothing is executed on the last part. -/
theorem Leads.then_silent (h : Leads σ p limit s done s') (h' : Leads σ p limit s' [] s'') :
    Leads σ p limit s done s'' := by
  have hpath := h.trans h'
  rwa [List.append_nil] at hpath

end Paths

section Steps

variable {σ : Type} [FireContext σ] {p : Program} {limit place : Nat} {frame : RepeatFrame}
  {frames : List RepeatFrame} {e : Emitter} {s : Stance}

theorem IsAt.next? (h : e.IsAt p limit s) {i : Instruction} (hi : p.fetch? s.place = some i) :
    e.next? = some i := by
  rw [Emitter.next?, h.program, h.counter, hi]

/-! ### Single steps -/

/-- An instruction that is no bracket. -/
theorem moves_op {i : Instruction} (hi : p.fetch? place = some i) (plain : i.isBracket = false) :
    Moves σ p limit ⟨place, frames⟩ [i] ⟨place + 1, frames⟩ := by
  intro e he origin ctx
  have hnext := he.next? hi
  obtain ⟨hflow, hprogram, hcounter, hrepeats, hdepth⟩ :=
    execute_of_not_bracket plain e origin ctx
  rw [cycle_of_next? hnext]
  refine ⟨by simp [nextPlain, hnext, plain], hflow, ?_, ?_, ?_, ?_⟩
  · rw [hprogram, he.program]
  · rw [hdepth, he.maxDepth]
  · rw [hcounter, he.counter]
  · rw [hrepeats, he.repeats]

/-- A loop start that finds room: the body begins behind all the starts that follow it. -/
theorem moves_repeatStart {times : Nat} (hi : p.fetch? place = some (.repeatStart times))
    (hroom : frames.length < limit) {following : List Instruction}
    (hfollowing : (p.instructions.drop (place + 1)).takeWhile (·.isRepeatStart) = following) :
    Moves σ p limit ⟨place, frames⟩ []
      ⟨place + 1, ⟨place + 1 + following.length, none, times⟩ :: frames⟩ := by
  intro e he origin ctx
  have hnext := he.next? hi
  have hopen : e.repeatStart times =
      { e with repeats := ⟨place + 1 + following.length, none, times⟩ :: e.repeats,
               counter := e.counter + 1 } := by
    rw [repeatStart, he.program, he.counter, hfollowing, he.maxDepth, he.repeats, if_pos hroom]
  rw [cycle_of_next? hnext, execute, hopen]
  refine ⟨nextPlain_of_bracket hnext rfl, Flow.noConfusion, he.program, he.maxDepth, ?_, ?_⟩
  · exact congrArg (· + 1) he.counter
  · exact congrArg (_ :: ·) he.repeats

/-- The end of a loop that has turns left. -/
theorem moves_back (hi : p.fetch? place = some .repeatEnd)
    (hstop : frame.stop = none ∨ frame.stop = some place) (hturns : 1 < frame.remaining) :
    Moves σ p limit ⟨place, frame :: frames⟩ []
      ⟨frame.start, ⟨frame.start, some place, frame.remaining - 1⟩ :: frames⟩ := by
  intro e he origin ctx
  have hnext := he.next? hi
  have hend := repeatEnd_eq he.repeats (by rw [he.counter]; exact hstop)
  rw [cycle_of_next? hnext, execute, hend, if_pos hturns]
  refine ⟨nextPlain_of_bracket hnext rfl, Flow.noConfusion, he.program, he.maxDepth, rfl, ?_⟩
  rw [he.counter]

/-- The end of a loop in its last turn. -/
theorem moves_close (hi : p.fetch? place = some .repeatEnd)
    (hstop : frame.stop = none ∨ frame.stop = some place) (hturns : ¬ 1 < frame.remaining) :
    Moves σ p limit ⟨place, frame :: frames⟩ [] ⟨place + 1, frames⟩ := by
  intro e he origin ctx
  have hnext := he.next? hi
  have hend := repeatEnd_eq he.repeats (by rw [he.counter]; exact hstop)
  rw [cycle_of_next? hnext, execute, hend, if_neg hturns]
  exact ⟨nextPlain_of_bracket hnext rfl, Flow.noConfusion, he.program, he.maxDepth,
    congrArg (· + 1) he.counter, rfl⟩

/-- A loop end that is known not to be the one of the innermost loop. -/
theorem moves_skip (hi : p.fetch? place = some .repeatEnd) {stop : Nat}
    (hstop : frame.stop = some stop) (hother : stop ≠ place) :
    Moves σ p limit ⟨place, frame :: frames⟩ [] ⟨place + 1, frame :: frames⟩ := by
  intro e he origin ctx
  have hnext := he.next? hi
  have hend := repeatEnd_of_ne he.repeats hstop (by rw [he.counter]; exact hother)
  rw [cycle_of_next? hnext, execute, hend]
  exact ⟨nextPlain_of_bracket hnext rfl, Flow.noConfusion, he.program, he.maxDepth,
    congrArg (· + 1) he.counter, he.repeats⟩

/-! ### Loops and blocks -/

/-- **The turns of a loop**, seen from its end: the body once for every turn that is left behind the
current one, and then on. -/
theorem leads_turns {start turns : Nat} {body : List Instruction}
    (hi : p.fetch? place = some .repeatEnd)
    (hbody : ∀ left, Leads σ p limit ⟨start, ⟨start, some place, left⟩ :: frames⟩ body
      ⟨place, ⟨start, some place, left⟩ :: frames⟩)
    {stop : Option Nat} (hstop : stop = none ∨ stop = some place) :
    Leads σ p limit ⟨place, ⟨start, stop, turns⟩ :: frames⟩ (copies (turns - 1) body)
      ⟨place + 1, frames⟩ := by
  induction turns generalizing stop with
  | zero => exact (moves_close hi hstop (Nat.not_lt_zero 1)).leads
  | succ turns ih =>
    by_cases hturns : 1 < turns + 1
    · have hback : Moves σ p limit ⟨place, ⟨start, stop, turns + 1⟩ :: frames⟩ []
          ⟨start, ⟨start, some place, turns⟩ :: frames⟩ := moves_back hi hstop hturns
      have hagain := hback.leads.trans_silent ((hbody turns).trans (ih (.inr rfl)))
      rwa [← copies_succ, show turns - 1 + 1 = turns + 1 - 1 by omega] at hagain
    · have hlast : turns + 1 - 1 = 0 := by omega
      rw [hlast]
      exact (moves_close hi hstop hturns).leads

/-- **A block** leads to its end, and what was open before is open then, too. -/
theorem leads_block {b : Block} (hapart : b.Apart)
    (hstands : Stands p.instructions b.flatten place)
    (hroom : frames.length + b.nesting ≤ limit) :
    Leads σ p limit ⟨place, frames⟩ b.laxUnfolding ⟨place + b.flatten.length, frames⟩ := by
  induction b generalizing place frames with
  | nil => exact .refl _
  | op i plain next ih =>
    have hrest : Leads σ p limit ⟨place + 1, frames⟩ next.laxUnfolding
        ⟨place + 1 + next.flatten.length, frames⟩ := ih hapart hstands.tail hroom
    rw [show place + 1 + next.flatten.length = place + (i :: next.flatten).length by
      rw [List.length_cons]; omega] at hrest
    exact .head (moves_op hstands.getElem? plain) hrest
  | loop times body next ihBody ihNext =>
    obtain ⟨⟨hopens, hbodyApart⟩, hnextApart⟩ := hapart
    rw [Block.nesting] at hroom
    obtain ⟨hstandsBody, hstandsEnd⟩ := Stands.append_iff.mp hstands.tail
    have hfollowing :
        (p.instructions.drop (place + 1)).takeWhile (·.isRepeatStart) = [] := by
      obtain ⟨rest, hrest⟩ := hstands.tail
      rw [← hrest, List.append_assoc]
      exact Block.takeWhile_isRepeatStart hopens rfl
    have hopen : Moves σ p limit ⟨place, frames⟩ []
        ⟨place + 1, ⟨place + 1, none, times⟩ :: frames⟩ :=
      moves_repeatStart hstands.getElem? (by omega) hfollowing
    have hbody : ∀ frame : RepeatFrame, Leads σ p limit ⟨place + 1, frame :: frames⟩
        body.laxUnfolding ⟨place + 1 + body.flatten.length, frame :: frames⟩ :=
      fun frame => ihBody hbodyApart hstandsBody (by rw [List.length_cons]; omega)
    have hturns : Leads σ p limit ⟨place + 1 + body.flatten.length,
        ⟨place + 1, none, times⟩ :: frames⟩ (copies (times - 1) body.laxUnfolding)
        ⟨place + 1 + body.flatten.length + 1, frames⟩ :=
      leads_turns hstandsEnd.getElem? (fun left => hbody _) (.inl rfl)
    have hrest : Leads σ p limit ⟨place + 1 + body.flatten.length + 1, frames⟩ next.laxUnfolding
        ⟨place + 1 + body.flatten.length + 1 + next.flatten.length, frames⟩ :=
      ihNext hnextApart hstandsEnd.tail (by omega)
    have hpath := hopen.leads.trans_silent (((hbody _).trans hturns).trans hrest)
    have hcount : max times 1 = times - 1 + 1 := by omega
    have hplace : place + 1 + body.flatten.length + 1 + next.flatten.length =
        place + (Block.loop times body next).flatten.length := by
      simp only [Block.flatten, List.length_cons, List.length_append]
      omega
    rw [Block.laxUnfolding, hcount, copies_succ, ← hplace]
    exact hpath

/-! ### From a path to a session -/

/-- The emitter has these instructions in front of it, brackets left out, and then nothing more. -/
def Goes (σ : Type) [FireContext σ] (todo : List Instruction) (e : Emitter) : Prop :=
  ∃ s, Leads σ e.program e.maxDepth ⟨e.counter, e.repeats⟩ todo s ∧
    e.program.fetch? s.place = none ∧ s.frames = []

theorem carries_goes : Carries σ (fun _ => True) (Goes σ) where
  waits h _ _ := h
  cycle := by
    rintro todo e ⟨s, hleads, hend, hclosed⟩ origin ctx
    refine ⟨trivial, ?_⟩
    generalize hfrom : Stance.mk e.counter e.repeats = s₀ at hleads
    cases hleads with
    | refl =>
      subst hfrom
      have hfinished : e.Finished := ⟨hend, hclosed⟩
      rw [hfinished.cycle, nextPlain_of_next?_eq_none hend]
      exact ⟨[], rfl, ⟨_, .refl _, hend, hclosed⟩, fun _ => ⟨rfl, hfinished⟩⟩
    | @head _ s' _ done rest first later =>
      subst hfrom
      obtain ⟨hplain, hflow, hat⟩ := first e ⟨rfl, rfl, rfl, rfl⟩ origin ctx
      refine ⟨rest, by rw [hplain], ⟨s, ?_, ?_, hclosed⟩, fun hended => absurd hended hflow⟩
      · rw [hat.program, hat.maxDepth, hat.counter, hat.repeats]
        exact later
      · rw [hat.program]
        exact hend

/-- **A path is what a session runs.** If there is a path from the beginning of a program to its end
that leaves no loop open, then any session of the program executes the instructions on it. -/
theorem enacts_of_leads {todo : List Instruction}
    (hleads : Leads σ p e.maxDepth ⟨0, []⟩ todo ⟨p.instructions.length, []⟩) {c : Call σ}
    (hc : c.Begins p e) {calls : List (Call σ)} (hcalls : ∀ c ∈ calls, c.GoesOn) :
    Enacts todo (e.log (c :: calls)) := by
  refine (carries_goes.session (fun e' hstart hroom => ?_) hc hcalls).1
  obtain ⟨rfl, hcounter, hrepeats⟩ := hstart
  refine ⟨⟨e'.program.instructions.length, []⟩, ?_, List.getElem?_eq_none (Nat.le_refl _), rfl⟩
  rw [hroom, hcounter, hrepeats]
  exact hleads

end Steps

end Emitter

end BulletHell
