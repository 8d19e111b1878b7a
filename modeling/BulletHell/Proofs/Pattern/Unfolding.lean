import BulletHell.Proofs.Pattern.Carrying
import BulletHell.World.FireControl

/-!
# Strict programs run their unfolding

The interpreter works on the flat list with a stack of loop frames, finds the end of a loop only
when it first gets there, takes the end of the program for a loop end, and stops in the middle
whenever the budget of a tick is used up. For a program that passed the strict check all of that
cannot be seen: what it executes is the unfolding of the program's outline, cut off somewhere.

## The invariant

`Awaits` ties a counter and a stack of frames to the instructions still to come. A block begins
at the counter, and what comes behind it is said by `Follows`, one frame at a time: the end of
the program, the loop that is left open, or the end of the loop of the innermost frame, behind
which the same holds for the frames outside it. The static nesting is in the constructors, so
the stack has no other shape than the brackets around the counter.

One cycle either executes the first of those instructions or executes nothing and leaves them as
they are (`Awaits.cycle`), and no guard of the interpreter is met on the way.

## Main results

* `Emitter.Awaits.cycle` — one cycle, from which runs and calls follow
* `Emitter.executed_prefix_unfolding` — a session of a strict program
-/

namespace BulletHell

/-- Surroundings without a target, and without room for shots. -/
def FireControl.emptySky : FireControl where
  target := none
  fallbackAngle := 0
  archetypes := []
  shots := ShotPools.new 0 0 0
  rng := Pcg32.ofSeed 0
  events := #[]
  tick := 0

/-! ### Code at a place -/

/-- `code` stands at `place`. -/
def Stands (ops code : List Instruction) (place : Nat) : Prop :=
  code <+: ops.drop place

namespace Stands

variable {ops code more : List Instruction} {place : Nat} {i : Instruction}

theorem getElem? (h : Stands ops (i :: code) place) : ops[place]? = some i := by
  obtain ⟨rest, hrest⟩ := h
  have hhead := congrArg (·[0]?) hrest
  simpa using hhead.symm

theorem append_iff :
    Stands ops (code ++ more) place ↔
      Stands ops code place ∧ Stands ops more (place + code.length) := by
  constructor
  · rintro ⟨rest, hrest⟩
    refine ⟨⟨more ++ rest, by simpa using hrest⟩, rest, ?_⟩
    rw [← List.drop_drop, ← hrest]
    simp
  · rintro ⟨⟨rest, hrest⟩, ⟨rest', hrest'⟩⟩
    refine ⟨rest', ?_⟩
    rw [← List.drop_drop, ← hrest, List.drop_left] at hrest'
    rw [List.append_assoc, hrest', hrest]

theorem tail (h : Stands ops (i :: code) place) : Stands ops code (place + 1) := by
  have hcode : Stands ops ([i] ++ code) place := h
  exact (append_iff.mp hcode).2

end Stands

/-! ### What is still to come -/

section Invariant

variable (ops : List Instruction) (limit : Nat)

/-- A frame of the loop with the given body, which ends at `place` with `depth` loops open. -/
structure Runs (depth : Nat) (frame : RepeatFrame) (body : Block) (place : Nat) : Prop where
  stands : Stands ops body.flatten frame.start
  ends : frame.start + body.flatten.length = place
  turns : 0 < frame.remaining
  depth_le : depth ≤ limit
  fits : body.Fits (limit - depth)

/-- What is still to come where a block ends. -/
inductive Follows : Nat → List RepeatFrame → List Instruction → Prop
  /-- The program ends and no loop is open. -/
  | finish : Follows ops.length [] []
  /-- The loop begins that is left open. -/
  | opening {place times : Nat} {body : Block}
      (stands : Stands ops (.repeatStart times :: body.flatten) place)
      (ends : place + 1 + body.flatten.length = ops.length)
      (fits : 0 < limit ∧ 0 < times ∧ body.opensLoop = false ∧ body.Fits (limit - 1)) :
      Follows place [] (copies times body.unfolding)
  /-- The innermost loop ends. -/
  | closing {place : Nat} {frame : RepeatFrame} {frames : List RepeatFrame} {body next : Block}
      {todo : List Instruction}
      (runs : Runs ops limit (frames.length + 1) frame body place)
      (stop : frame.stop = none ∨ frame.stop = some place)
      (stands : Stands ops (.repeatEnd :: next.flatten) place)
      (fits : next.Fits (limit - frames.length))
      (outer : Follows (place + 1 + next.flatten.length) frames todo) :
      Follows place (frame :: frames)
        (copies (frame.remaining - 1) body.unfolding ++ (next.unfolding ++ todo))
  /-- The program ends inside the loop that was left open. -/
  | wrapping {frame : RepeatFrame} {body : Block}
      (runs : Runs ops limit 1 frame body ops.length) :
      Follows ops.length [frame] (copies (frame.remaining - 1) body.unfolding)

/-- What is still to come at a place. -/
def AwaitsAt (place : Nat) (frames : List RepeatFrame) (todo : List Instruction) : Prop :=
  ∃ (b : Block) (rest : List Instruction), Stands ops b.flatten place ∧
    b.Fits (limit - frames.length) ∧ Follows ops limit (place + b.flatten.length) frames rest ∧
    todo = b.unfolding ++ rest

variable {ops limit} {frame : RepeatFrame} {frames : List RepeatFrame} {place depth : Nat}
  {body : Block} {todo : List Instruction}

theorem Follows.awaitsAt (h : Follows ops limit place frames todo) :
    AwaitsAt ops limit place frames todo :=
  ⟨.nil, todo, List.nil_prefix, trivial, h, rfl⟩

/-- At the beginning the whole program is to come. -/
theorem awaitsAt_zero {o : Outline} (h : o.flatten = ops) (hfits : o.Fits limit) :
    AwaitsAt ops limit 0 [] o.unfolding := by
  obtain ⟨lead, openLoop⟩ := o
  refine ⟨lead, _, ⟨_, h⟩, hfits.1, ?_, rfl⟩
  cases hopen : openLoop with
  | none =>
    have hlen : 0 + lead.flatten.length = ops.length := by
      rw [← h]
      simp [Outline.flatten, hopen]
    rw [hlen]
    exact .finish
  | some loop =>
    obtain ⟨times, body⟩ := loop
    have hflat : lead.flatten ++ .repeatStart times :: body.flatten = ops := by
      rw [← h, Outline.flatten, hopen]
    refine .opening ?_ ?_ (hfits.2 times body hopen)
    · exact (Stands.append_iff.mp ⟨[], by simpa using hflat⟩).2
    · rw [← hflat]
      simp
      omega

/-- A loop frame that begins a turn: the body is to come, and then what follows it. -/
theorem Runs.awaitsAt (h : Runs ops limit (frames.length + 1) frame body place)
    (hfollows : Follows ops limit place (frame :: frames) todo) :
    AwaitsAt ops limit frame.start (frame :: frames) (body.unfolding ++ todo) :=
  ⟨body, todo, h.stands, h.fits, by rw [h.ends]; exact hfollows, rfl⟩

end Invariant

namespace Emitter

/-! ### One cycle -/

section Cycle

variable {σ : Type} [FireContext σ] {e : Emitter} {i : Instruction}

/-- What an instruction that is no bracket leaves alone. -/
theorem execute_of_not_bracket (plain : i.isBracket = false) (e : Emitter) (origin : Vec2)
    (ctx : σ) :
    (e.execute origin ctx i).1 ≠ .ended ∧
      (e.execute origin ctx i).2.1.program = e.program ∧
      (e.execute origin ctx i).2.1.counter = e.counter + 1 ∧
      (e.execute origin ctx i).2.1.repeats = e.repeats ∧
      (e.execute origin ctx i).2.1.maxDepth = e.maxDepth := by
  cases i with
  | repeatStart times => cases plain
  | repeatEnd => cases plain
  | setMode mode =>
    obtain ⟨offset, heq⟩ := e.exists_setMode_eq mode
    simp [execute, heq, advance]
  | _ => simp [execute, fire, turn, advance]

end Cycle

/-- The instructions still to come in a program whose loops keep the rules. -/
def Awaits (limit : Nat) (todo : List Instruction) (e : Emitter) : Prop :=
  limit ≤ e.maxDepth ∧ AwaitsAt e.program.instructions limit e.counter e.repeats todo

/-- What a cycle does to the instructions still to come. -/
structure Progress (limit : Nat) (todo : List Instruction) (e : Emitter) (flow : Flow)
    (e' : Emitter) : Prop where
  not_atGuard : ¬ e.AtGuard
  rest : ∃ todo', todo = e.nextPlain ++ todo' ∧ e'.Awaits limit todo' ∧
    (flow = .ended → todo' = [] ∧ e'.Finished)

section Step

variable {σ : Type} [FireContext σ] {e : Emitter} {limit : Nat} {todo : List Instruction}

theorem next?_of_stands {i : Instruction} {code : List Instruction}
    (h : Stands e.program.instructions (i :: code) e.counter) : e.next? = some i :=
  h.getElem?

theorem nextPlain_of_bracket {i : Instruction} (h : e.next? = some i)
    (bracket : i.isBracket = true) : e.nextPlain = [] := by
  simp [nextPlain, h, bracket]

theorem not_atGuard_of_plain {i : Instruction} (h : e.next? = some i)
    (plain : i.isBracket = false) : ¬ e.AtGuard := by
  rw [AtGuard, h]
  cases i <;> first | exact not_false | cases plain

/-- An instruction that is no bracket is executed, and the counter goes on to what stands
behind it. -/
theorem progress_op {i : Instruction} {next : Block} (hlimit : limit ≤ e.maxDepth)
    (plain : i.isBracket = false)
    (stands : Stands e.program.instructions (i :: next.flatten) e.counter)
    (fits : next.Fits (limit - e.repeats.length))
    (follows : Follows e.program.instructions limit (e.counter + 1 + next.flatten.length)
      e.repeats todo) (origin : Vec2) (ctx : σ) :
    Progress limit (i :: (next.unfolding ++ todo)) e (e.cycle origin ctx).1
      (e.cycle origin ctx).2.1 := by
  have hnext : e.next? = some i := next?_of_stands stands
  obtain ⟨hflow, hprogram, hcounter, hrepeats, hdepth⟩ :=
    execute_of_not_bracket plain e origin ctx
  rw [cycle_of_next? hnext]
  refine ⟨not_atGuard_of_plain hnext plain, next.unfolding ++ todo, ?_, ?_, ?_⟩
  · simp [nextPlain, hnext, plain]
  · refine ⟨by rw [hdepth]; exact hlimit, ?_⟩
    rw [hprogram, hcounter, hrepeats]
    exact ⟨next, todo, stands.tail, fits, follows, rfl⟩
  · exact fun h => absurd h hflow

/-- A loop start in a program whose loops keep the rules: the turns of its loop are still to
come. -/
theorem progress_repeatStart {times : Nat} {body : Block} (hlimit : limit ≤ e.maxDepth)
    (hnext : e.next? = some (.repeatStart times))
    (hapart : (e.program.instructions.drop (e.counter + 1)).takeWhile (·.isRepeatStart) = [])
    (hroom : e.repeats.length < limit) (htimes : 0 < times)
    (hafter : AwaitsAt e.program.instructions limit (e.counter + 1)
      (⟨e.counter + 1, none, times⟩ :: e.repeats)
      (body.unfolding ++ (copies (times - 1) body.unfolding ++ todo))) (origin : Vec2) (ctx : σ) :
    Progress limit (copies times body.unfolding ++ todo) e (e.cycle origin ctx).1
      (e.cycle origin ctx).2.1 := by
  have hopen := repeatStart_eq times hapart (Nat.lt_of_lt_of_le hroom hlimit)
  rw [cycle_of_next? hnext]
  refine ⟨?_, copies times body.unfolding ++ todo, ?_, ⟨?_, ?_⟩, fun h => by cases h⟩
  · rw [AtGuard, hnext]
    exact Nat.not_le.mpr (Nat.lt_of_lt_of_le hroom hlimit)
  · rw [nextPlain_of_bracket hnext rfl, List.nil_append]
  · simp only [execute, hopen]
    exact hlimit
  · simp only [execute, hopen]
    rw [copies_of_pos htimes, List.append_assoc]
    exact hafter

/-- A loop that is closed begins. -/
theorem progress_loop {times : Nat} {body next : Block} (hlimit : limit ≤ e.maxDepth)
    (stands : Stands e.program.instructions (Block.loop times body next).flatten e.counter)
    (fits : (Block.loop times body next).Fits (limit - e.repeats.length))
    (follows : Follows e.program.instructions limit
      (e.counter + (Block.loop times body next).flatten.length) e.repeats todo)
    (origin : Vec2) (ctx : σ) :
    Progress limit (copies times body.unfolding ++ (next.unfolding ++ todo)) e
      (e.cycle origin ctx).1 (e.cycle origin ctx).2.1 := by
  obtain ⟨⟨hroom, htimes, hopens, hbody⟩, hnextFits⟩ := fits
  obtain ⟨hstandsBody, hstandsEnd⟩ := Stands.append_iff.mp stands.tail
  have hplace : e.counter + (Block.loop times body next).flatten.length
      = e.counter + 1 + body.flatten.length + 1 + next.flatten.length := by
    simp [Block.flatten]
    omega
  rw [hplace] at follows
  have hruns : Runs e.program.instructions limit (e.repeats.length + 1)
      ⟨e.counter + 1, none, times⟩ body (e.counter + 1 + body.flatten.length) :=
    ⟨hstandsBody, rfl, htimes, by omega, by rw [← Nat.sub_sub]; exact hbody⟩
  refine progress_repeatStart hlimit (next?_of_stands stands) ?_ (by omega) htimes
    (hruns.awaitsAt (.closing hruns (.inl rfl) hstandsEnd hnextFits follows)) origin ctx
  obtain ⟨rest, hrest⟩ := stands.tail
  rw [← hrest, List.append_assoc]
  exact Block.takeWhile_isRepeatStart hopens rfl

/-- The loop begins that is left open. -/
theorem progress_opening {times : Nat} {body : Block} (hlimit : limit ≤ e.maxDepth)
    (hframes : e.repeats = [])
    (stands : Stands e.program.instructions (.repeatStart times :: body.flatten) e.counter)
    (ends : e.counter + 1 + body.flatten.length = e.program.instructions.length)
    (fits : 0 < limit ∧ 0 < times ∧ body.opensLoop = false ∧ body.Fits (limit - 1))
    (origin : Vec2) (ctx : σ) :
    Progress limit (copies times body.unfolding) e (e.cycle origin ctx).1
      (e.cycle origin ctx).2.1 := by
  obtain ⟨hroom, htimes, hopens, hbody⟩ := fits
  have hruns : Runs e.program.instructions limit 1 ⟨e.counter + 1, none, times⟩ body
      e.program.instructions.length :=
    ⟨stands.tail, ends, htimes, hroom, hbody⟩
  have hafter : AwaitsAt e.program.instructions limit (e.counter + 1)
      (⟨e.counter + 1, none, times⟩ :: e.repeats)
      (body.unfolding ++ (copies (times - 1) body.unfolding ++ [])) := by
    rw [hframes, List.append_nil]
    exact hruns.awaitsAt (.wrapping hruns)
  rw [← List.append_nil (copies times body.unfolding)]
  refine progress_repeatStart hlimit (next?_of_stands stands) ?_ (by rw [hframes]; exact hroom)
    htimes hafter origin ctx
  -- nothing stands behind the body, since it takes up the rest of the program
  obtain ⟨rest, hrest⟩ := stands.tail
  have hlen := congrArg List.length hrest
  rw [List.length_append, List.length_drop] at hlen
  have hnil : rest = [] := List.length_eq_zero_iff.mp (by omega)
  rw [← hrest, hnil]
  exact Block.takeWhile_isRepeatStart hopens rfl

/-- The innermost loop ends: it is repeated while turns are left, and closed otherwise. -/
theorem progress_closing {frame : RepeatFrame} {frames : List RepeatFrame} {body next : Block}
    (hlimit : limit ≤ e.maxDepth) (hframes : e.repeats = frame :: frames)
    (runs : Runs e.program.instructions limit (frames.length + 1) frame body e.counter)
    (stop : frame.stop = none ∨ frame.stop = some e.counter)
    (stands : Stands e.program.instructions (.repeatEnd :: next.flatten) e.counter)
    (fits : next.Fits (limit - frames.length))
    (outer : Follows e.program.instructions limit (e.counter + 1 + next.flatten.length) frames
      todo) (origin : Vec2) (ctx : σ) :
    Progress limit (copies (frame.remaining - 1) body.unfolding ++ (next.unfolding ++ todo)) e
      (e.cycle origin ctx).1 (e.cycle origin ctx).2.1 := by
  have hnext : e.next? = some .repeatEnd := next?_of_stands stands
  have hguard : ¬ e.AtGuard := by
    rw [AtGuard, hnext, hframes]
    rintro (⟨place, hplace, hne⟩ | hzero)
    · rcases stop with hnone | hhere
      · cases hnone.symm.trans hplace
      · exact hne (Option.some.inj (hplace.symm.trans hhere))
    · exact absurd hzero (Nat.pos_iff_ne_zero.mp runs.turns)
  rw [cycle_of_next? hnext]
  by_cases hturns : 1 < frame.remaining
  · have hend := (repeatEnd_eq hframes stop).trans (if_pos hturns)
    have hagain : Runs e.program.instructions limit (frames.length + 1)
        ⟨frame.start, some e.counter, frame.remaining - 1⟩ body e.counter :=
      ⟨runs.stands, runs.ends, by simp; omega, runs.depth_le, runs.fits⟩
    refine ⟨hguard, copies (frame.remaining - 1) body.unfolding ++ (next.unfolding ++ todo), ?_,
      ⟨?_, ?_⟩, fun h => by cases h⟩
    · rw [nextPlain_of_bracket hnext rfl, List.nil_append]
    · simp only [execute, hend]
      exact hlimit
    · simp only [execute, hend]
      rw [copies_of_pos (by omega), List.append_assoc]
      exact hagain.awaitsAt (.closing hagain (.inr rfl) stands fits outer)
  · have hend := (repeatEnd_eq hframes stop).trans (if_neg hturns)
    refine ⟨hguard, next.unfolding ++ todo, ?_, ⟨?_, ?_⟩, fun h => by cases h⟩
    · rw [nextPlain_of_bracket hnext rfl, show frame.remaining - 1 = 0 by omega]
      rfl
    · simp only [execute, hend]
      exact hlimit
    · simp only [execute, hend]
      exact ⟨next, todo, stands.tail, fits, outer, rfl⟩

theorem next?_eq_none_of_counter (h : e.counter = e.program.instructions.length) :
    e.next? = none :=
  List.getElem?_eq_none (Nat.le_of_eq h.symm)

theorem not_atGuard_of_next?_eq_none (h : e.next? = none) : ¬ e.AtGuard := by
  rw [AtGuard, h]
  exact not_false

theorem progress_finish (hlimit : limit ≤ e.maxDepth) (hframes : e.repeats = [])
    (hplace : e.counter = e.program.instructions.length) (origin : Vec2) (ctx : σ) :
    Progress limit [] e (e.cycle origin ctx).1 (e.cycle origin ctx).2.1 := by
  have hnext := next?_eq_none_of_counter hplace
  rw [Finished.cycle ⟨hnext, hframes⟩]
  refine ⟨not_atGuard_of_next?_eq_none hnext, [], ?_, ⟨hlimit, ?_⟩, fun _ => ⟨rfl, hnext, hframes⟩⟩
  · rw [nextPlain_of_next?_eq_none hnext, List.nil_append]
  · rw [hframes, hplace]
    exact Follows.finish.awaitsAt

/-- The program ends inside the loop that was left open: it is repeated while turns are left,
and otherwise the program has ended. -/
theorem progress_wrapping {frame : RepeatFrame} {body : Block} (hlimit : limit ≤ e.maxDepth)
    (hframes : e.repeats = [frame])
    (hplace : e.counter = e.program.instructions.length)
    (runs : Runs e.program.instructions limit 1 frame body e.program.instructions.length)
    (origin : Vec2) (ctx : σ) :
    Progress limit (copies (frame.remaining - 1) body.unfolding) e (e.cycle origin ctx).1
      (e.cycle origin ctx).2.1 := by
  have hnext := next?_eq_none_of_counter hplace
  rw [cycle_of_next?_eq_none hnext]
  by_cases hturns : 1 < frame.remaining
  · have hend := (endOfProgram_eq hframes).trans (if_pos hturns)
    have hagain : Runs e.program.instructions limit 1
        { frame with remaining := frame.remaining - 1 } body e.program.instructions.length :=
      ⟨runs.stands, runs.ends, by simp; omega, runs.depth_le, runs.fits⟩
    rw [hend]
    refine ⟨not_atGuard_of_next?_eq_none hnext, copies (frame.remaining - 1) body.unfolding, ?_,
      ⟨hlimit, ?_⟩, fun h => by cases h⟩
    · rw [nextPlain_of_next?_eq_none hnext, List.nil_append]
    · rw [copies_of_pos (by omega)]
      exact Runs.awaitsAt hagain (.wrapping hagain)
  · have hend := (endOfProgram_eq hframes).trans (if_neg hturns)
    rw [hend]
    refine ⟨not_atGuard_of_next?_eq_none hnext, [], ?_, ⟨hlimit, ?_⟩,
      fun _ => ⟨rfl, hnext, rfl⟩⟩
    · rw [nextPlain_of_next?_eq_none hnext, show frame.remaining - 1 = 0 by omega]
      rfl
    · show AwaitsAt e.program.instructions limit e.counter [] []
      rw [hplace]
      exact Follows.finish.awaitsAt

/-- **One cycle.** It meets no guard, and executes the first of the instructions still to come
or nothing. -/
theorem Awaits.cycle (h : e.Awaits limit todo) (origin : Vec2) (ctx : σ) :
    Progress limit todo e (e.cycle origin ctx).1 (e.cycle origin ctx).2.1 := by
  obtain ⟨hlimit, b, rest, stands, fits, follows, rfl⟩ := h
  cases b with
  | op i plain next =>
    refine progress_op hlimit plain stands fits ?_ origin ctx
    simpa [Block.flatten, Nat.add_assoc, Nat.add_comm] using follows
  | loop times body next =>
    rw [Block.unfolding, List.append_assoc]
    exact progress_loop hlimit stands fits follows origin ctx
  | nil =>
    simp only [Block.flatten, List.length_nil, Nat.add_zero, Block.unfolding, List.nil_append]
      at follows ⊢
    generalize hplace : e.counter = place at follows
    generalize hframes : e.repeats = frames at follows
    cases follows with
    | finish => exact progress_finish hlimit hframes hplace origin ctx
    | opening stands ends fits =>
      subst hplace
      exact progress_opening hlimit hframes stands ends fits origin ctx
    | closing runs stop stands fits outer =>
      subst hplace
      exact progress_closing hlimit hframes runs stop stands fits outer origin ctx
    | wrapping runs => exact progress_wrapping hlimit hframes hplace runs origin ctx

theorem carries_awaits (limit : Nat) :
    Carries σ (¬ ·.AtGuard) fun todo e => e.Awaits limit todo where
  waits h _ _ := h
  cycle h origin ctx := ⟨(h.cycle origin ctx).not_atGuard, (h.cycle origin ctx).rest⟩

/-! ### Sessions -/

/-- A log of what was to come, in which the interpreter took every loop bracket at its word. -/
structure Unfolds (todo : List Instruction) (entries : List Entry) : Prop
    extends Enacts todo entries where
  not_atGuard : ∀ r ∈ entries, ∀ s ∈ r.cycles, ¬ s.AtGuard

/-- At its start a program has all of its unfolding to come. -/
theorem awaits_of_atStart {p : Program} {o : Outline} (hlimit : limit ≤ e.maxDepth)
    (hflat : o.flatten = p.instructions) (hfits : o.Fits limit) (h : e.AtStart p) :
    e.Awaits limit o.unfolding := by
  obtain ⟨rfl, hcounter, hrepeats⟩ := h
  refine ⟨hlimit, ?_⟩
  rw [hcounter, hrepeats]
  exact awaitsAt_zero hflat hfits

/-- **A strict program runs its unfolding.** From the call that loads or restarts it, in any
sequence of ticks and beats, the instructions executed are a first part of the unfolding; when a
tick answers that the program has ended they are all of it, and nothing is executed from there
on; and every loop bracket on the way is taken at its word. -/
theorem executed_prefix_unfolding {ops : List Instruction} {p : Program}
    (hp : Program.ofInstructions true limit ops = .ok p) (hlimit : limit ≤ e.maxDepth)
    {c : Call σ} (hc : c.Begins p e) {calls : List (Call σ)}
    (hcalls : ∀ c ∈ calls, c.GoesOn) :
    ∃ o, Outline.read? p.instructions = some o ∧ o.flatten = ops ∧
      Unfolds o.unfolding (e.log (c :: calls)) := by
  rw [Program.ofInstructions, if_pos rfl] at hp
  split at hp
  · cases hp
  · rename_i hvalid
    obtain rfl := Except.ok.inj hp
    obtain ⟨o, hread, hfits⟩ := Outline.exists_of_validate hvalid
    have hflat : o.flatten = ops := Outline.flatten_of_read? hread
    obtain ⟨henacts, hguards⟩ := (carries_awaits limit).session
      (fun e' hstart hroom => awaits_of_atStart (hroom ▸ hlimit) hflat hfits hstart) hc hcalls
    exact ⟨o, hread, hflat, henacts, hguards⟩

/-- Two nested loops and one that is left open, restarted and then kept going. -/
theorem executed_prefix_unfolding_of_nested :
    let ops : List Instruction :=
      [.repeatStart 2, .fire, .repeatStart 3, .waitBeats 1, .repeatEnd, .repeatEnd,
       .repeatStart 2, .mirror, .fire]
    let e : Emitter := { idle 2 with program := ⟨ops⟩, counter := 5, waitFrames := 7 }
    let c : Call FireControl := .restart Vec2.zero .emptySky
    let calls : List (Call FireControl) :=
      [.tick Vec2.zero .emptySky, .beat, .tick Vec2.zero .emptySky]
    (Program.ofInstructions true 2 ops = .ok ⟨ops⟩ ∧ 2 ≤ e.maxDepth ∧ c.Begins ⟨ops⟩ e ∧
      ∀ c ∈ calls, c.GoesOn) ∧
      ∃ o, Outline.read? ops = some o ∧ o.flatten = ops ∧
        Unfolds o.unfolding (e.log (c :: calls)) := by
  intro ops e c calls
  have hp : Program.ofInstructions true 2 ops = .ok ⟨ops⟩ := rfl
  have hcalls : ∀ c ∈ calls, c.GoesOn := by simp [calls, Call.GoesOn]
  exact ⟨⟨hp, Nat.le_refl 2, rfl, hcalls⟩,
    executed_prefix_unfolding (e := e) (c := c) hp (Nat.le_refl 2) rfl hcalls⟩

end Step

end Emitter

end BulletHell
