import BulletHell.Proofs.Pattern.Tidy
import BulletHell.Proofs.Pattern.Unfolding

/-!
# Programs that nest too deep

When a loop finds no room, the interpreter says that its body runs once, and passes over the start
of the loop. But it does not pass over the end of that loop. To the interpreter, this is the end of
the innermost loop that is open, so it is the loop around that goes into its next turn there, or is
closed. The limit does not only flatten the loops that exceed it: it also cuts short those around
them, and what stands between the two loop ends is run less often.

What such a program does run is the tidy list, in which the brackets that are passed over are left
out and the others pair up anew. An emitter in the midst of a program is compared with one that runs
the tidy program, and stands at the same place of it with the same loops open. The second one is
covered by what is known of programs that do not nest too deep. The first takes more cycles, one for
each bracket that it passes over, and more ticks if a budget is used up by that. So the two are
compared cycle by cycle, and a cycle that passes over a bracket is none of the tidied emitter.

## Why the comparison ends with the program

At the end of a program a loop may be taken up again, or be closed. When it is closed, fewer loops
are open than the program has opened up to its end, and the emitters are no longer `Aligned`. The
program has ended then, and nothing is left to compare.

## Main definitions

* `Emitter.tidied` — the emitter at the same place of the tidy program
* `Emitter.Mirrors` — a cycle does to both emitters the same
* `Emitter.AwaitsTidied` — the instructions still to come
* `Block.cut` — what the limit is meant to do

## Main results

* `Emitter.mirrors_cycle` — one cycle
* `Emitter.carries_awaitsTidied`, `Emitter.enacts_of_begins` — a session
* `Emitter.deep_loops_pair_up_anew`
-/

namespace BulletHell

/-- A frame of a loop, with its places as places of the tidy program. -/
def RepeatFrame.tidied (limit : Nat) (ops : List Instruction) (frame : RepeatFrame) : RepeatFrame :=
  { frame with start := placeIn limit ops frame.start, stop := frame.stop.map (placeIn limit ops) }

/-- Frames as a list leaves them open: each loop begins with itself and those around it open, and
ends, if that is known, with a loop end that is not passed over. -/
def FramesFit (limit : Nat) (ops : List Instruction) : List RepeatFrame → Prop
  | [] => True
  | frame :: rest =>
    (depthAt limit ops frame.start = rest.length + 1 ∧ ∀ stop, frame.stop = some stop →
      ops[stop]? = some .repeatEnd ∧ 0 < depthAt limit ops stop) ∧ FramesFit limit ops rest

namespace Emitter

/-- The emitter at the same place of its program, without the brackets that it passes over. -/
def tidied (e : Emitter) : Emitter :=
  { e with
    program := ⟨tidy e.maxDepth 0 e.program.instructions⟩
    counter := placeIn e.maxDepth e.program.instructions e.counter
    repeats := e.repeats.map (·.tidied e.maxDepth e.program.instructions) }

/-- An emitter whose open loops are those that its program has opened up to the counter. -/
structure Aligned (e : Emitter) : Prop where
  apart : ∀ place times, e.program.instructions[place]? = some (.repeatStart times) →
    (e.program.instructions.drop (place + 1)).takeWhile (·.isRepeatStart) = []
  depth : e.repeats.length = depthAt e.maxDepth e.program.instructions e.counter
  frames : FramesFit e.maxDepth e.program.instructions e.repeats

section Cycle

variable {e : Emitter} {i : Instruction}

theorem tidied_repeats {frame : RepeatFrame} {rest : List RepeatFrame}
    (hrepeats : e.repeats = frame :: rest) :
    e.tidied.repeats = frame.tidied e.maxDepth e.program.instructions ::
      rest.map (·.tidied e.maxDepth e.program.instructions) := by
  rw [tidied, hrepeats, List.map_cons]

theorem Aligned.next?_tidied (h : e.Aligned) (hnext : e.next? = some i)
    (hkept : i.isSpare e.maxDepth e.repeats.length = false) : e.tidied.next? = some i := by
  rw [h.depth] at hkept
  exact getElem?_tidy hnext hkept

theorem next?_tidied_of_none (hnext : e.next? = none) : e.tidied.next? = none :=
  getElem?_tidy_of_none hnext

/-- What a cycle of an emitter did, and what one of the tidied emitter did, are the same. -/
structure Mirrors {σ : Type} (e : Emitter) (done doneTidied : Flow × Emitter × σ) : Prop where
  flow : done.1 = doneTidied.1
  tidied : done.2.1.tidied = doneTidied.2.1
  depth : done.2.1.maxDepth = e.maxDepth
  aligned : done.1 ≠ .ended → done.2.1.Aligned

theorem mirrors_endOfProgram {σ : Type} (h : e.Aligned) (ctx : σ) :
    Mirrors e (e.endOfProgram.1, e.endOfProgram.2, ctx)
      (e.tidied.endOfProgram.1, e.tidied.endOfProgram.2, ctx) := by
  cases hrepeats : e.repeats with
  | nil =>
    have hrepeats' : e.tidied.repeats = [] := by rw [tidied, hrepeats, List.map_nil]
    have hend := endOfProgram_nil hrepeats
    have hend' := endOfProgram_nil hrepeats'
    rw [hend, hend']
    exact ⟨rfl, rfl, rfl, fun hflow => absurd rfl hflow⟩
  | cons frame rest =>
    have hframes := h.frames
    rw [hrepeats] at hframes
    obtain ⟨⟨hstart, hstops⟩, hrest⟩ := hframes
    rw [endOfProgram_eq hrepeats, endOfProgram_eq (tidied_repeats hrepeats)]
    by_cases hturns : 1 < frame.remaining
    · rw [if_pos hturns, if_pos (show 1 < (frame.tidied _ _).remaining from hturns)]
      exact ⟨rfl, rfl, rfl, fun _ => ⟨h.apart, hstart.symm, ⟨hstart, hstops⟩, hrest⟩⟩
    · rw [if_neg hturns, if_neg (show ¬ 1 < (frame.tidied _ _).remaining from hturns)]
      exact ⟨rfl, rfl, rfl, fun hflow => absurd rfl hflow⟩

variable {σ : Type} [FireContext σ]

/-! ### Brackets that are passed over -/

theorem nextPlain_of_isSpare (hnext : e.next? = some i)
    (hspare : i.isSpare e.maxDepth e.repeats.length = true) : e.nextPlain = [] := by
  refine nextPlain_of_bracket hnext ?_
  rw [← Bool.not_eq_false]
  exact fun plain => Bool.false_ne_true ((i.isSpare_of_not_bracket plain).symm.trans hspare)

/-- A spare bracket takes a cycle of its own, and nothing else comes of it. -/
theorem cycle_of_isSpare (hnext : e.next? = some i)
    (hspare : i.isSpare e.maxDepth e.repeats.length = true) (origin : Vec2) (ctx : σ) :
    e.cycle origin ctx = (.running, e.advance, ctx) := by
  rw [cycle_of_next? hnext]
  cases i with
  | repeatStart times =>
    have hfull : ¬ e.repeats.length < e.maxDepth := Nat.not_lt.mpr (of_decide_eq_true hspare)
    rw [execute, repeatStart, if_neg hfull]
    rfl
  | repeatEnd =>
    have hnone : e.repeats = [] := List.length_eq_zero_iff.mp (of_decide_eq_true hspare)
    rw [execute, repeatEnd_nil hnone]
  | _ => cases hspare

theorem Aligned.advance_of_isSpare (h : e.Aligned) (hnext : e.next? = some i)
    (hspare : i.isSpare e.maxDepth e.repeats.length = true) :
    e.advance.Aligned ∧ e.advance.tidied = e.tidied := by
  rw [h.depth] at hspare
  refine ⟨⟨h.apart, ?_, h.frames⟩, ?_⟩
  · show e.repeats.length = depthAt e.maxDepth e.program.instructions (e.counter + 1)
    rw [depthAt_succ hnext, i.depthAfter_of_isSpare hspare, h.depth]
  · rw [tidied, advance, placeIn_succ_of_isSpare hnext hspare, tidied]

/-! ### Everything else -/

theorem mirrors_op (h : e.Aligned) (hnext : e.next? = some i) (plain : i.isBracket = false)
    (origin : Vec2) (ctx : σ) :
    Mirrors e (e.execute origin ctx i) (e.tidied.execute origin ctx i) := by
  have hkept : i.isSpare e.maxDepth (depthAt e.maxDepth e.program.instructions e.counter) = false :=
    i.isSpare_of_not_bracket plain
  have hplace := placeIn_succ_of_not_isSpare hnext hkept
  have hdepth : depthAt e.maxDepth e.program.instructions (e.counter + 1) =
      depthAt e.maxDepth e.program.instructions e.counter := by
    rw [depthAt_succ hnext, i.depthAfter_of_not_bracket plain]
  obtain ⟨-, hprogram, hcounter, hrepeats, hroom⟩ := execute_of_not_bracket plain e origin ctx
  refine ⟨?_, ?_, hroom, fun _ => ⟨?_, ?_, ?_⟩⟩
  · cases i <;> rfl
  · cases i with
    | repeatStart times => cases plain
    | repeatEnd => cases plain
    | setMode mode =>
      by_cases hmode : mode = e.mode
      · simp [execute, setMode, advance, tidied, hplace, hmode]
      · simp [execute, setMode, advance, tidied, hplace, hmode]
    | offsetAngle degrees =>
      simp only [execute, turn, advance, tidied, hplace]
      rfl
    | _ => simp [execute, fire, aim, advance, tidied, hplace]
  · rw [hprogram]
    exact h.apart
  · rw [hprogram, hcounter, hrepeats, hroom, hdepth]
    exact h.depth
  · rw [hprogram, hrepeats, hroom]
    exact h.frames

theorem mirrors_repeatStart (h : e.Aligned) {times : Nat}
    (hnext : e.next? = some (.repeatStart times)) (hroom : e.repeats.length < e.maxDepth)
    (origin : Vec2) (ctx : σ) :
    Mirrors e (e.execute origin ctx (.repeatStart times))
      (e.tidied.execute origin ctx (.repeatStart times)) := by
  have hroom' : depthAt e.maxDepth e.program.instructions e.counter < e.maxDepth := h.depth ▸ hroom
  have hdepth : depthAt e.maxDepth e.program.instructions (e.counter + 1) =
      e.repeats.length + 1 := by
    rw [depthAt_succ hnext, Instruction.depthAfter, if_pos hroom', h.depth]
  have hplace : placeIn e.maxDepth e.program.instructions (e.counter + 1) = e.tidied.counter + 1 :=
    placeIn_succ_of_not_isSpare hnext (decide_eq_false (Nat.not_le.mpr hroom'))
  have hapart := h.apart e.counter times hnext
  have hapart' : (e.tidied.program.instructions.drop (e.tidied.counter + 1)).takeWhile
      (·.isRepeatStart) = [] := by
    rw [← hplace]
    show ((tidy e.maxDepth 0 e.program.instructions).drop _).takeWhile _ = []
    rw [drop_tidy, hdepth]
    exact takeWhile_tidy hapart (Nat.succ_pos _)
  have hopen := repeatStart_eq times hapart hroom
  have hopen' : e.tidied.repeatStart times = { e.tidied with
      repeats := ⟨e.tidied.counter + 1, none, times⟩ :: e.tidied.repeats,
      counter := e.tidied.counter + 1 } :=
    repeatStart_eq times hapart' (by simpa [tidied] using hroom)
  simp only [execute, hopen, hopen', ← hplace]
  have hframe : ∀ stop, (none : Option Nat) = some stop →
      e.program.instructions[stop]? = some .repeatEnd ∧
        0 < depthAt e.maxDepth e.program.instructions stop := fun stop hstop => by cases hstop
  exact ⟨rfl, rfl, rfl, fun _ => ⟨h.apart, hdepth.symm, ⟨hdepth, hframe⟩, h.frames⟩⟩

theorem mirrors_repeatEnd (h : e.Aligned) (hnext : e.next? = some .repeatEnd)
    {frame : RepeatFrame} {rest : List RepeatFrame} (hrepeats : e.repeats = frame :: rest)
    (hguard : ¬ e.tidied.AtGuard) (origin : Vec2) (ctx : σ) :
    Mirrors e (e.execute origin ctx .repeatEnd) (e.tidied.execute origin ctx .repeatEnd) := by
  have hdepth : depthAt e.maxDepth e.program.instructions e.counter = rest.length + 1 := by
    rw [← h.depth, hrepeats, List.length_cons]
  have hkept : Instruction.repeatEnd.isSpare e.maxDepth
      (depthAt e.maxDepth e.program.instructions e.counter) = false := by
    rw [hdepth]
    rfl
  have hbehind : depthAt e.maxDepth e.program.instructions (e.counter + 1) = rest.length := by
    rw [depthAt_succ hnext, hdepth]
    rfl
  have hplace : placeIn e.maxDepth e.program.instructions (e.counter + 1) = e.tidied.counter + 1 :=
    placeIn_succ_of_not_isSpare hnext hkept
  have hframes := h.frames
  rw [hrepeats] at hframes
  obtain ⟨⟨hstart, hstops⟩, hrest⟩ := hframes
  have hrepeats' := tidied_repeats hrepeats
  have hnext' : e.tidied.next? = some .repeatEnd :=
    h.next?_tidied hnext (by rw [h.depth]; exact hkept)
  -- an end that the frame has met before is this one, since the tidied emitter is at no guard
  have hstop : frame.stop = none ∨ frame.stop = some e.counter := by
    cases hknown : frame.stop with
    | none => exact .inl rfl
    | some stop =>
      obtain ⟨hend, hopen⟩ := hstops stop hknown
      have hkept' : Instruction.repeatEnd.isSpare e.maxDepth
          (depthAt e.maxDepth e.program.instructions stop) = false :=
        decide_eq_false (Nat.pos_iff_ne_zero.mp hopen)
      refine .inr (congrArg some ((placeIn_inj hend hkept' hnext hkept).mp ?_))
      refine Decidable.byContradiction fun hne => hguard ?_
      rw [AtGuard, hnext', hrepeats']
      exact .inl ⟨_, by rw [RepeatFrame.tidied, hknown, Option.map_some], hne⟩
  have hstop' : (frame.tidied e.maxDepth e.program.instructions).stop = none ∨
      (frame.tidied e.maxDepth e.program.instructions).stop = some e.tidied.counter := by
    rcases hstop with hnone | hhere
    · exact .inl (by rw [RepeatFrame.tidied, hnone, Option.map_none])
    · exact .inr (by rw [RepeatFrame.tidied, hhere, Option.map_some, tidied])
  rw [execute, execute, repeatEnd_eq hrepeats hstop, repeatEnd_eq hrepeats' hstop']
  by_cases hturns : 1 < frame.remaining
  · rw [if_pos hturns, if_pos (show 1 < (frame.tidied _ _).remaining from hturns)]
    refine ⟨rfl, rfl, rfl, fun _ => ⟨h.apart, hstart.symm, ⟨hstart, fun stop hstop => ?_⟩, hrest⟩⟩
    obtain rfl := Option.some.inj hstop
    exact ⟨hnext, hdepth ▸ Nat.succ_pos _⟩
  · rw [if_neg hturns, if_neg (show ¬ 1 < (frame.tidied _ _).remaining from hturns), ← hplace]
    exact ⟨rfl, rfl, rfl, fun _ => ⟨h.apart, hbehind.symm, hrest⟩⟩

/-- **One cycle** that passes over no bracket is one of the tidied emitter. -/
theorem mirrors_cycle (h : e.Aligned)
    (hkept : ∀ i, e.next? = some i → i.isSpare e.maxDepth e.repeats.length = false)
    (hguard : ¬ e.tidied.AtGuard) (origin : Vec2) (ctx : σ) :
    Mirrors e (e.cycle origin ctx) (e.tidied.cycle origin ctx) := by
  cases hnext : e.next? with
  | none =>
    rw [cycle_of_next?_eq_none hnext, cycle_of_next?_eq_none (next?_tidied_of_none hnext)]
    exact mirrors_endOfProgram h ctx
  | some i =>
    have hi := hkept i hnext
    rw [cycle_of_next? hnext, cycle_of_next? (h.next?_tidied hnext hi)]
    by_cases plain : i.isBracket = false
    · exact mirrors_op h hnext plain origin ctx
    cases i <;> try exact absurd rfl plain
    case repeatStart times =>
      exact mirrors_repeatStart h hnext (Nat.not_le.mp (of_decide_eq_false hi)) origin ctx
    case repeatEnd =>
      cases hrepeats : e.repeats with
      | nil =>
        rw [hrepeats] at hi
        cases hi
      | cons frame rest => exact mirrors_repeatEnd h hnext hrepeats hguard origin ctx

theorem nextPlain_tidied (h : e.Aligned)
    (hkept : ∀ i, e.next? = some i → i.isSpare e.maxDepth e.repeats.length = false) :
    e.tidied.nextPlain = e.nextPlain := by
  cases hnext : e.next? with
  | none =>
    have hnext' := next?_tidied_of_none hnext
    rw [nextPlain_of_next?_eq_none hnext, nextPlain_of_next?_eq_none hnext']
  | some i => rw [nextPlain, nextPlain, hnext, h.next?_tidied hnext (hkept i hnext)]

/-! ### What is still to come -/

/-- The instructions still to come in a program that may nest too deep: those that are still to come
in the tidy one, and none when it has ended. -/
def AwaitsTidied (todo : List Instruction) (e : Emitter) : Prop :=
  (e.Aligned ∧ e.tidied.Awaits e.maxDepth todo) ∨ (todo = [] ∧ e.Finished)

/-- A cycle that passes over a bracket changes nothing of what is still to come. -/
theorem Aligned.cycle_of_isSpare (h : e.Aligned) {todo : List Instruction}
    (hawaits : e.tidied.Awaits e.maxDepth todo) (hnext : e.next? = some i)
    (hspare : i.isSpare e.maxDepth e.repeats.length = true) (origin : Vec2) (ctx : σ) :
    e.nextPlain = [] ∧ (e.cycle origin ctx).1 = .running ∧
      (e.cycle origin ctx).2.1.AwaitsTidied todo := by
  obtain ⟨haligned, htidied⟩ := h.advance_of_isSpare hnext hspare
  rw [Emitter.cycle_of_isSpare hnext hspare]
  refine ⟨nextPlain_of_isSpare hnext hspare, rfl, .inl ⟨haligned, ?_⟩⟩
  rw [htidied]
  exact hawaits

/-- Any other cycle does what the tidied emitter does. -/
theorem Aligned.cycle_of_kept (h : e.Aligned) {todo : List Instruction}
    (hawaits : e.tidied.Awaits e.maxDepth todo)
    (hkept : ∀ i, e.next? = some i → i.isSpare e.maxDepth e.repeats.length = false)
    (origin : Vec2) (ctx : σ) :
    ∃ todo', todo = e.nextPlain ++ todo' ∧ (e.cycle origin ctx).2.1.AwaitsTidied todo' ∧
      ((e.cycle origin ctx).1 = .ended → todo' = [] ∧ (e.cycle origin ctx).2.1.Finished) := by
  obtain ⟨hguard, todo', htodo, hawaits', hended⟩ := hawaits.cycle origin ctx
  obtain ⟨hflow, htidied, hdepth, haligned⟩ := mirrors_cycle h hkept hguard origin ctx
  rw [nextPlain_tidied h hkept] at htodo
  have hlast : (e.cycle origin ctx).1 = .ended →
      todo' = [] ∧ (e.cycle origin ctx).2.1.Finished := by
    intro hflow'
    obtain ⟨hnone, -, hrepeats⟩ := hended (hflow.symm.trans hflow')
    rw [← htidied] at hrepeats
    exact ⟨hnone, next?_cycle e origin ctx hflow', List.map_eq_nil_iff.mp hrepeats⟩
  refine ⟨todo', htodo, ?_, hlast⟩
  by_cases hflow' : (e.cycle origin ctx).1 = .ended
  · exact .inr (hlast hflow')
  · refine .inl ⟨haligned hflow', ?_⟩
    rw [htidied, hdepth]
    exact hawaits'

/-- **One cycle** carries on what is still to come. -/
theorem carries_awaitsTidied : Carries σ (fun _ => True) AwaitsTidied where
  waits := by
    rintro todo e (⟨haligned, hawaits⟩ | hended) frames beats
    · exact .inl ⟨⟨haligned.apart, haligned.depth, haligned.frames⟩, hawaits⟩
    · exact .inr hended
  cycle := by
    rintro todo e (⟨haligned, hawaits⟩ | ⟨rfl, hfinished⟩) origin ctx
    · refine ⟨trivial, ?_⟩
      by_cases hspare : ∃ i, e.next? = some i ∧ i.isSpare e.maxDepth e.repeats.length = true
      · obtain ⟨i, hnext, hspare⟩ := hspare
        obtain ⟨hplain, hflow, hawaits'⟩ :=
          haligned.cycle_of_isSpare hawaits hnext hspare origin ctx
        rw [hplain, hflow]
        exact ⟨todo, rfl, hawaits', fun hended => by cases hended⟩
      · refine haligned.cycle_of_kept hawaits (fun i hnext => ?_) origin ctx
        rw [← Bool.not_eq_true]
        exact fun h => hspare ⟨i, hnext, h⟩
    · rw [nextPlain_of_next?_eq_none hfinished.1, hfinished.cycle]
      exact ⟨trivial, [], rfl, .inr ⟨rfl, hfinished⟩, fun _ => ⟨rfl, hfinished⟩⟩

/-- In front of a program that the strict check has nothing to say against but that it may nest too
deep, all of the tidy program is still to come. -/
theorem AtStart.awaitsTidied {bound : Nat} {p : Program} (h : e.AtStart p)
    (hvalid : Program.validate bound p.instructions = .ok ()) {o : Outline}
    (hflat : o.flatten = tidy e.maxDepth 0 p.instructions) (hfits : o.Fits e.maxDepth) :
    e.AwaitsTidied o.unfolding := by
  obtain ⟨rfl, hcounter, hrepeats⟩ := h
  obtain ⟨s, hrun, -⟩ := Program.validate_eq_ok_iff.mp hvalid
  refine .inl ⟨⟨fun place times => Program.Scan.apart_of_run hrun, ?_, ?_⟩, Nat.le_refl _, ?_⟩
  · rw [hrepeats, hcounter]
    rfl
  · rw [hrepeats]
    trivial
  · rw [tidied, hrepeats, hcounter]
    exact awaitsAt_zero hflat hfits

/-- **A session** of such a program runs the unfolding of the tidy program. -/
theorem enacts_of_begins {bound : Nat} {p : Program}
    (hvalid : Program.validate bound p.instructions = .ok ()) {o : Outline}
    (hflat : o.flatten = tidy e.maxDepth 0 p.instructions) (hfits : o.Fits e.maxDepth)
    {c : Call σ} (hc : c.Begins p e) {calls : List (Call σ)} (hcalls : ∀ c ∈ calls, c.GoesOn) :
    Enacts o.unfolding (e.log (c :: calls)) := by
  refine (carries_awaitsTidied.session (fun e' hstart hroom => ?_) hc hcalls).1
  exact hstart.awaitsTidied hvalid (hroom ▸ hflat) (hroom ▸ hfits)

end Cycle

end Emitter

/-! ### What a limit is meant to do -/

namespace Block

/-- What a block would stand for if a limit flattened the loops that are nested too deep, and no
others: those run their bodies once. -/
def cut : Nat → Block → List Instruction
  | _, nil => []
  | limit, op i _ next => i :: next.cut limit
  | limit, loop times body next =>
    copies (if 0 < limit then times else 1) (body.cut (limit - 1)) ++ next.cut limit

theorem cut_of_fits {limit : Nat} {b : Block} (h : b.Fits limit) : b.cut limit = b.unfolding := by
  induction b generalizing limit with
  | nil => rfl
  | op i plain next ih => rw [cut, unfolding, ih h]
  | loop times body next ihBody ihNext =>
    obtain ⟨⟨hlimit, -, -, hbody⟩, hnext⟩ := h
    rw [cut, unfolding, if_pos hlimit, ihBody hbody, ihNext hnext]

/-- Where there is no room for loops, only the brackets go. -/
theorem tidy_zero (b : Block) (rest : List Instruction) :
    tidy 0 0 (b.flatten ++ rest) = b.cut 0 ++ tidy 0 0 rest := by
  induction b generalizing rest with
  | nil => rfl
  | op i plain next ih =>
    rw [flatten, List.cons_append, tidy_of_not_bracket plain, ih, cut, List.cons_append]
  | loop times body next ihBody ihNext =>
    rw [flatten, List.cons_append, List.append_assoc, List.cons_append,
      tidy_repeatStart_of_le (Nat.le_refl 0), ihBody, tidy_repeatEnd_zero, ihNext, cut,
      if_neg (Nat.lt_irrefl 0), copies_succ, copies_zero, List.append_nil, List.append_assoc]

theorem cut_zero (b : Block) : b.cut 0 = tidy 0 0 b.flatten := by
  have hwhole := b.tidy_zero []
  rwa [List.append_nil, tidy, List.append_nil, eq_comm] at hwhole

/-- A block whose loops find room is tidy. -/
theorem tidy_of_fits {limit depth : Nat} {b : Block} (h : b.Fits (limit - depth))
    (rest : List Instruction) :
    tidy limit depth (b.flatten ++ rest) = b.flatten ++ tidy limit depth rest := by
  induction b generalizing depth rest with
  | nil => rfl
  | op i plain next ih =>
    rw [flatten, List.cons_append, tidy_of_not_bracket plain, ih h, List.cons_append]
  | loop times body next ihBody ihNext =>
    obtain ⟨⟨hroom, -, -, hbody⟩, hnext⟩ := h
    rw [Nat.sub_sub] at hbody
    rw [flatten, List.cons_append, List.append_assoc, List.cons_append,
      tidy_repeatStart_of_lt (by omega), ihBody hbody, tidy_repeatEnd_succ, ihNext hnext,
      List.cons_append, List.append_assoc, List.cons_append]

theorem unfolding_of_fits_zero {b : Block} (h : b.Fits 0) : b.unfolding = b.flatten := by
  induction b with
  | nil => rfl
  | op i plain next ih => rw [unfolding, flatten, ih h]
  | loop times body next => exact absurd h.1.1 (Nat.lt_irrefl 0)

end Block

theorem Outline.unfolding_of_fits_zero {o : Outline} (h : o.Fits 0) : o.unfolding = o.flatten := by
  obtain ⟨lead, openLoop⟩ := o
  cases openLoop with
  | none =>
    rw [unfolding, flatten, Block.unfolding_of_fits_zero h.1]
  | some loop =>
    obtain ⟨times, body⟩ := loop
    exact absurd (h.2 times body rfl).1 (Nat.lt_irrefl 0)

namespace Emitter

variable {σ : Type} [FireContext σ] {e : Emitter}

/-- **A program that nests too deep runs its tidy list.** Take a program whose brackets match, whose
loops all have turns, and in which no loop starts directly behind another, and any room for open
loops. From the call that loads or restarts it, in any sequence of ticks and beats, what is executed
is a first part of the unfolding of the tidy list, in which brackets pair up anew; and all of it
when a tick answers that the program has ended.

If there is room for all the loops of the program, or for none, this is what the limit is meant to
do: the loops that are nested too deep run their bodies once, and those around them keep their
turns. -/
theorem deep_loops_pair_up_anew {b : Block} {bound : Nat} (hb : b.Fits bound) {c : Call σ}
    (hc : c.Begins ⟨b.flatten⟩ e) {calls : List (Call σ)} (hcalls : ∀ c ∈ calls, c.GoesOn) :
    (∃ o, Outline.read? (tidy e.maxDepth 0 b.flatten) = some o ∧
        Enacts o.unfolding (e.log (c :: calls))) ∧
      (b.Fits e.maxDepth ∨ e.maxDepth = 0 → Enacts (b.cut e.maxDepth) (e.log (c :: calls))) := by
  have hwhole : (Outline.mk b none).flatten = b.flatten := List.append_nil _
  have hvalid : Program.validate bound b.flatten = .ok () := by
    rw [← hwhole]
    exact Outline.validate_of_fits ⟨hb, fun times body hopen => by cases hopen⟩
  obtain ⟨o, hread, hfits⟩ := Outline.exists_of_tidy hvalid e.maxDepth
  have hflat := Outline.flatten_of_read? hread
  have henacts : Enacts o.unfolding (e.log (c :: calls)) :=
    enacts_of_begins (p := ⟨b.flatten⟩) hvalid hflat hfits hc hcalls
  refine ⟨⟨o, hread, henacts⟩, ?_⟩
  rintro (hroom | hnone)
  · have htidy : tidy e.maxDepth 0 b.flatten = b.flatten := by
      have h : tidy e.maxDepth 0 (b.flatten ++ []) = b.flatten ++ tidy e.maxDepth 0 [] :=
        Block.tidy_of_fits (show b.Fits (e.maxDepth - 0) from hroom) []
      rwa [List.append_nil, tidy, List.append_nil] at h
    have hunfolding : (Outline.mk b none).unfolding = b.unfolding := List.append_nil _
    rw [Block.cut_of_fits hroom, ← hunfolding]
    exact enacts_of_begins (p := ⟨b.flatten⟩) hvalid (hwhole.trans htidy.symm)
      ⟨hroom, fun times body hopen => by cases hopen⟩ hc hcalls
  · rw [hnone] at hflat hfits ⊢
    rw [Block.cut_zero, ← hflat, ← Outline.unfolding_of_fits_zero hfits]
    exact henacts

/-- A loop in a loop, and a shot behind the inner one. -/
def spiral : Block :=
  .loop 2 (.op (.offsetAngle 1) rfl (.loop 2 (.op (.offsetAngle 10) rfl .nil) (.op .fire rfl .nil)))
    .nil

/-- The program is loaded, and runs to its end. -/
def spiralCalls : List (Call FireControl) :=
  [.load ⟨Vec2.zero, ⟨0⟩, 1, ⟨spiral.flatten⟩⟩ false, .tick Vec2.zero .emptySky,
   .tick Vec2.zero .emptySky]

/-- With room for one open loop, the outer loop gets the end of the inner one. It takes its second
turn before the shot, which is fired only once; the limit is meant to have it fired in both turns.
With room for both loops it is. -/
theorem deep_loops_pair_up_anew_of_spiral :
    spiral.Fits 2 ∧
      spiral.cut 1 =
        [.offsetAngle 1, .offsetAngle 10, .fire, .offsetAngle 1, .offsetAngle 10, .fire] ∧
      (∃ o, Outline.read? (tidy 1 0 spiral.flatten) = some o ∧
        o.unfolding = [.offsetAngle 1, .offsetAngle 10, .offsetAngle 1, .offsetAngle 10, .fire] ∧
        Enacts o.unfolding ((idle 1).log spiralCalls)) ∧
      ((idle 1).log spiralCalls).map (·.answer) = [none, some true, some false] ∧
      Enacts (spiral.cut 2) ((idle 2).log spiralCalls) := by
  have hfits : spiral.Fits 2 := by simp [spiral, Block.Fits, Block.opensLoop]
  have hbegins : ∀ e, (.load ⟨Vec2.zero, ⟨0⟩, 1, ⟨spiral.flatten⟩⟩ false : Call FireControl).Begins
      ⟨spiral.flatten⟩ e := fun _ => rfl
  have hcalls : ∀ c ∈ spiralCalls.tail, c.GoesOn := by simp [spiralCalls, Call.GoesOn]
  obtain ⟨⟨o, hread, henacts⟩, -⟩ := deep_loops_pair_up_anew hfits (hbegins (idle 1)) hcalls
  have hunfolding : (Outline.read? (tidy 1 0 spiral.flatten)).map Outline.unfolding =
      some [.offsetAngle 1, .offsetAngle 10, .offsetAngle 1, .offsetAngle 10, .fire] := rfl
  rw [show Outline.read? (tidy 1 0 spiral.flatten) = some o from hread] at hunfolding
  refine ⟨hfits, rfl, ⟨o, hread, Option.some.inj hunfolding, henacts⟩, rfl, ?_⟩
  exact (deep_loops_pair_up_anew hfits (hbegins (idle 2)) hcalls).2 (.inl hfits)

end Emitter

end BulletHell
