import BulletHell.Proofs.Pattern.Halting
import BulletHell.Proofs.Pattern.Paths

/-!
# Loops that start together

Loop starts that follow each other directly open a loop each, and all of these loops begin at the
same instruction, behind the last of the starts. So the inner loops are not begun anew in each turn
of the outer ones. What one might read as nested loops are loops that share a body: the body is run
once for all of them together, and then once more for every further turn of each. The strict check
refuses such programs, because they look as if their turns multiplied.

It is the loop ends that make this work. The innermost loop ends at the first of them. When it is
used up, the next loop finds itself at the second one, and takes this for its end. From then on the
first end is none of its own, and is passed over in each of its turns; and so it goes on outwards.
So a loop passes over as many ends as there are loops inside it.

## Main definitions

* `sharing` — loops that start together around a block
* `turnsInAll` — all their turns, one for a loop that has none

## Main results

* `Emitter.leads_starts`, `Emitter.leads_ends` — from the first start to the body, and from the
  first end to behind the last one
* `Emitter.adjacent_loops_add_up`
-/

namespace BulletHell

/-- Loop starts in a row, a block, and as many loop ends. -/
def sharing (counts : List Nat) (body : Block) : List Instruction :=
  counts.map .repeatStart ++ (body.flatten ++ List.replicate counts.length .repeatEnd)

/-- All turns of some loops. Each of them has one at least. -/
def turnsInAll : List Nat → Nat
  | [] => 0
  | times :: rest => max times 1 + turnsInAll rest

section Turns

variable {counts : List Nat}

theorem turnsInAll_append (counts counts' : List Nat) :
    turnsInAll (counts ++ counts') = turnsInAll counts + turnsInAll counts' := by
  induction counts with
  | nil => exact (Nat.zero_add _).symm
  | cons times rest ih => rw [List.cons_append, turnsInAll, turnsInAll, ih, Nat.add_assoc]

theorem turnsInAll_reverse (counts : List Nat) :
    turnsInAll counts.reverse = turnsInAll counts := by
  induction counts with
  | nil => rfl
  | cons times rest ih =>
    rw [List.reverse_cons, turnsInAll_append, ih, turnsInAll, turnsInAll, turnsInAll]
    omega

theorem length_le_turnsInAll (counts : List Nat) : counts.length ≤ turnsInAll counts := by
  induction counts with
  | nil => exact Nat.le_refl 0
  | cons times rest ih =>
    rw [List.length_cons, turnsInAll]
    omega

end Turns

theorem copies_add (count count' : Nat) (ops : List Instruction) :
    copies (count + count') ops = copies count ops ++ copies count' ops := by
  rw [copies, List.replicate_add, List.flatten_append, copies, copies]

namespace Emitter

variable {σ : Type} [FireContext σ] {e : Emitter} {p : Program} {limit : Nat}

/-- The frame of a loop that has begun there, and has not met its end. -/
def freshFrame (start times : Nat) : RepeatFrame :=
  ⟨start, none, times⟩

/-- **The starts** open a loop each, and these begin behind the last of them. -/
theorem leads_starts {counts : List Nat} {code : List Instruction} {place : Nat}
    {frames : List RepeatFrame}
    (hstands : Stands p.instructions (counts.map .repeatStart ++ code) place)
    (hcode : ∀ rest, (code ++ rest).takeWhile (·.isRepeatStart) = [])
    (hroom : frames.length + counts.length ≤ limit) :
    Leads σ p limit ⟨place, frames⟩ [] ⟨place + counts.length,
      (counts.map (freshFrame (place + counts.length))).reverse ++ frames⟩ := by
  induction counts generalizing place frames with
  | nil => exact .refl _
  | cons times counts ih =>
    have htail : Stands p.instructions (counts.map .repeatStart ++ code) (place + 1) := hstands.tail
    have hfollowing : (p.instructions.drop (place + 1)).takeWhile (·.isRepeatStart) =
        counts.map .repeatStart := by
      obtain ⟨rest, hrest⟩ := htail
      have hstarts : ∀ i ∈ counts.map Instruction.repeatStart, i.isRepeatStart = true := by
        intro i hi
        obtain ⟨times, -, rfl⟩ := List.mem_map.mp hi
        rfl
      rw [← hrest, List.append_assoc, List.takeWhile_append_of_pos hstarts, hcode,
        List.append_nil]
    rw [List.length_cons] at hroom
    have hopen : Moves σ p limit ⟨place, frames⟩ [] _ :=
      moves_repeatStart hstands.getElem? (by omega) hfollowing
    have hroom' : (freshFrame (place + 1 + counts.length) times :: frames).length +
        counts.length ≤ limit := by
      rw [List.length_cons]
      omega
    have hrest := ih htail hroom'
    rw [List.length_map] at hopen
    have hplace : place + (times :: counts).length = place + 1 + counts.length := by
      rw [List.length_cons]
      omega
    rw [hplace, List.map_cons, List.reverse_cons, List.append_assoc, List.singleton_append]
    exact hopen.leads.trans_silent hrest

/-- Loop ends in front of the one that the innermost loop has are passed over. -/
theorem leads_skips {count place : Nat} {frame : RepeatFrame} {frames : List RepeatFrame}
    (hends : Stands p.instructions (List.replicate count .repeatEnd) place)
    (hstop : frame.stop = some (place + count)) :
    Leads σ p limit ⟨place, frame :: frames⟩ [] ⟨place + count, frame :: frames⟩ := by
  induction count generalizing place with
  | zero => exact .refl _
  | succ count ih =>
    rw [List.replicate_succ] at hends
    have hplace : place + (count + 1) = place + 1 + count := by omega
    rw [hplace] at hstop ⊢
    have hskip : Moves σ p limit ⟨place, frame :: frames⟩ [] ⟨place + 1, frame :: frames⟩ :=
      moves_skip hends.getElem? hstop (by omega)
    exact hskip.leads.trans_silent (ih hends.tail hstop)

/-- **The ends**, from the first that is not known to belong to a loop inside. Each of the loops
that are left runs the body for its further turns, and passes over the ends of the loops inside. -/
theorem leads_ends {start first bound : Nat} {body : List Instruction} {skipped : Nat}
    {counts : List Nat}
    (hends : Stands p.instructions (List.replicate (skipped + counts.length) .repeatEnd) first)
    (hbound : counts.length ≤ bound)
    (hbody : ∀ frames, frames.length ≤ bound →
      Leads σ p limit ⟨start, frames⟩ body ⟨first, frames⟩) :
    Leads σ p limit ⟨first + skipped, counts.map (freshFrame start)⟩
      (copies (turnsInAll counts - counts.length) body)
      ⟨first + skipped + counts.length, []⟩ := by
  induction counts generalizing skipped with
  | nil => exact .refl _
  | cons times counts ih =>
    have hsplit : skipped + (times :: counts).length = skipped + (counts.length + 1) := rfl
    rw [hsplit, List.replicate_add] at hends
    obtain ⟨hskipped, hlater⟩ := Stands.append_iff.mp hends
    rw [List.length_replicate, List.replicate_succ] at hlater
    rw [List.length_cons] at hbound
    -- every further turn of this loop goes through the body and past the ends inside
    have hturn : ∀ left, Leads σ p limit
        ⟨start, ⟨start, some (first + skipped), left⟩ :: counts.map (freshFrame start)⟩ body
        ⟨first + skipped,
          ⟨start, some (first + skipped), left⟩ :: counts.map (freshFrame start)⟩ :=
      fun left => (hbody _ (by rw [List.length_cons, List.length_map]; omega)).then_silent
        (leads_skips hskipped rfl)
    have hthis : Leads σ p limit
        ⟨first + skipped, freshFrame start times :: counts.map (freshFrame start)⟩
        (copies (times - 1) body) ⟨first + skipped + 1, counts.map (freshFrame start)⟩ :=
      leads_turns hlater.getElem? hturn (.inl rfl)
    have hends' : Stands p.instructions
        (List.replicate (skipped + 1 + counts.length) .repeatEnd) first := by
      rwa [show skipped + 1 + counts.length = skipped + (counts.length + 1) by omega,
        List.replicate_add]
    have hrest := ih hends' (by omega)
    have hcount : turnsInAll (times :: counts) - (times :: counts).length =
        (times - 1) + (turnsInAll counts - counts.length) := by
      have hle := length_le_turnsInAll counts
      rw [turnsInAll, List.length_cons]
      omega
    have hplace : first + skipped + (times :: counts).length =
        first + (skipped + 1) + counts.length := by
      rw [List.length_cons]
      omega
    rw [hcount, copies_add, hplace, List.map_cons]
    exact hthis.trans hrest

/-- The whole way through loops that start together. -/
theorem leads_sharing {counts : List Nat} (hcounts : counts ≠ []) {body : Block}
    (hopens : body.opensLoop = false) (hapart : body.Apart)
    (hroom : counts.length + body.nesting ≤ limit) :
    Leads σ ⟨sharing counts body⟩ limit ⟨0, []⟩
      (copies (turnsInAll counts - (counts.length - 1)) body.laxUnfolding)
      ⟨(sharing counts body).length, []⟩ := by
  have hwhole : Stands (sharing counts body) (sharing counts body) 0 := List.prefix_rfl
  obtain ⟨-, hbehind⟩ := Stands.append_iff.mp hwhole
  obtain ⟨hstands, hends⟩ := Stands.append_iff.mp hbehind
  rw [List.length_map, Nat.zero_add] at hstands hends
  have hpos := List.length_pos_of_ne_nil hcounts
  have hcode : ∀ rest : List Instruction,
      (body.flatten ++ List.replicate counts.length Instruction.repeatEnd ++ rest).takeWhile
        (·.isRepeatStart) = [] := by
    intro rest
    rw [List.append_assoc]
    refine Block.takeWhile_isRepeatStart hopens ?_
    rw [← Nat.sub_add_cancel hpos, List.replicate_succ]
    rfl
  have hstarts : Leads σ ⟨sharing counts body⟩ limit ⟨0, []⟩ [] _ :=
    leads_starts hwhole hcode (by rw [List.length_nil]; omega)
  rw [Nat.zero_add, List.append_nil, ← List.map_reverse] at hstarts
  have hbody : ∀ frames : List RepeatFrame, frames.length ≤ counts.length →
      Leads σ ⟨sharing counts body⟩ limit ⟨counts.length, frames⟩ body.laxUnfolding
        ⟨counts.length + body.flatten.length, frames⟩ :=
    fun frames hlength => leads_block hapart hstands (by omega)
  have hends' : Stands (sharing counts body)
      (List.replicate (0 + counts.reverse.length) .repeatEnd)
      (counts.length + body.flatten.length) := by
    rwa [List.length_reverse, Nat.zero_add]
  have hlast : Leads σ ⟨sharing counts body⟩ limit _ _ _ :=
    leads_ends hends' (Nat.le_of_eq List.length_reverse) hbody
  have hcount : turnsInAll counts - (counts.length - 1) =
      turnsInAll counts - counts.length + 1 := by
    have hle := length_le_turnsInAll counts
    omega
  have hplace : (sharing counts body).length =
      counts.length + body.flatten.length + counts.length := by
    rw [sharing, List.length_append, List.length_append, List.length_map, List.length_replicate,
      Nat.add_assoc]
  rw [turnsInAll_reverse, List.length_reverse, Nat.add_zero] at hlast
  rw [hcount, copies_succ, hplace]
  have hfresh : (counts.reverse.map (freshFrame counts.length)).length ≤ counts.length :=
    Nat.le_of_eq (by rw [List.length_map, List.length_reverse])
  exact hstarts.trans_silent ((hbody _ hfresh).trans hlast)

/-- **Loops that start together add up.** Take loop starts in a row, a body that does not begin with
another one and in which no loop begins with another one either, and as many loop ends. If there is
room for all of the loops, then from the call that loads or restarts the program, in any sequence of
ticks and beats, what is executed is a first part of so many copies of the body: one for each turn
of each loop, less one for every loop but the first. When a tick answers that the program has ended
it was all of them, and nothing is executed from there on. And beats and ticks in turn do end it.

Loops without turns count for one, in the row and in the body. Where all loops of the body have
turns it is the unfolding of the body that is copied. -/
theorem adjacent_loops_add_up {counts : List Nat} (hcounts : counts ≠ []) {body : Block}
    (hopens : body.opensLoop = false) (hapart : body.Apart)
    (hroom : counts.length + body.nesting ≤ e.maxDepth) {c : Call σ}
    (hc : c.Begins ⟨sharing counts body⟩ e) {calls : List (Call σ)}
    (hcalls : ∀ c ∈ calls, c.GoesOn) :
    Enacts (copies (turnsInAll counts - (counts.length - 1)) body.laxUnfolding)
        (e.log (c :: calls)) ∧
      (∀ limit, body.Fits limit →
        Enacts (copies (turnsInAll counts - (counts.length - 1)) body.unfolding)
          (e.log (c :: calls))) ∧
      ∀ around : Nat → Vec2 × σ,
        ∃ n, ∃ r ∈ (e.after (c :: calls)).log (rounds around n), r.answer = some false := by
  have henacts := enacts_of_leads (leads_sharing hcounts hopens hapart hroom) hc hcalls
  refine ⟨henacts, fun limit hfits => ?_, exists_ended_in_rounds _⟩
  rw [← Block.laxUnfolding_of_fits hfits]
  exact henacts

/-- A turn by some degrees, and a loop without turns around a wait for the next frame. -/
def drift : Block :=
  .op (.offsetAngle 30) rfl (.loop 0 (.op (.waitFrames 1) rfl .nil) .nil)

/-- Three loops around it, one of them without turns: the body is run four times, where nested loops
would run it six times. -/
theorem adjacent_loops_add_up_of_drift :
    let c : Call FireControl := .load ⟨Vec2.zero, ⟨0⟩, 1, ⟨sharing [3, 0, 2] drift⟩⟩ false
    let calls : List (Call FireControl) := List.replicate 5 (.tick Vec2.zero .emptySky)
    Enacts (copies 4 [.offsetAngle 30, .waitFrames 1]) ((idle 4).log (c :: calls)) ∧
      ((idle 4).log (c :: calls)).map (·.answer) =
        [none, some true, some true, some true, some true, some false] ∧
      ∃ n, ∃ r ∈ ((idle 4).after (c :: calls)).log
          (rounds (fun _ => (Vec2.zero, FireControl.emptySky)) n), r.answer = some false := by
  intro c calls
  have hc : c.Begins ⟨sharing [3, 0, 2] drift⟩ (idle 4) := rfl
  have hcalls : ∀ c ∈ calls, c.GoesOn := fun c hc => List.eq_of_mem_replicate hc ▸ trivial
  have hapart : drift.Apart := ⟨⟨rfl, trivial⟩, trivial⟩
  have hcounts : [3, 0, 2] ≠ [] := List.cons_ne_nil _ _
  have hroom : [3, 0, 2].length + drift.nesting ≤ (idle 4).maxDepth := Nat.le_refl 4
  obtain ⟨henacts, -, hends⟩ := adjacent_loops_add_up hcounts rfl hapart hroom hc hcalls
  exact ⟨henacts, by decide +kernel, hends _⟩

end Emitter

end BulletHell
