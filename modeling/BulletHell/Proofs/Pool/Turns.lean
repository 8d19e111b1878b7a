import BulletHell.Pool
import Mathlib.Data.List.Basic

/-!
# The turns of a pass

A pass gives every slot that is active at its beginning one turn. This file says what a turn is,
and what the two queues are after the pass in terms of its turns. Each turn queues what it has
spawned and then, if it stays, its own slot; so the active queue comes out as the turns one after
the other. The free queue is a queue all the while: what was spawned has left it at the front, and
what was released has joined it at the back, where later turns may find it.

## Main definitions

* `Turn` — a slot as its visit found it, and what the visit did
* `Visit.turn` — the turn of a visit that begins with given free slots
* `Pool.turns` — the turns of a pass

## Main results

* `Pool.tick_eq` — a pass and its turns
* `Pool.free_turns`, `Pool.index_spawned` — the free queue and the spawned slots, for the whole
  pass at once
-/

namespace BulletHell

/-- What one visit did. -/
structure Turn (α σ : Type) where
  /-- The slot as the visit found it. -/
  slot : Slot α
  /-- The slots that the visit spawned, oldest first. -/
  spawned : List (Slot α)
  keep : Bool
  /-- What the visit left in its slot. -/
  item : α
  /-- The state that the next visit is given. -/
  state : σ

namespace Turn

variable {α σ : Type}

/-- The slot as the visit left it. -/
def left (t : Turn α σ) : Slot α :=
  ⟨t.slot.index, t.item⟩

/-- What a turn puts at the back of the active queue. -/
def queued (t : Turn α σ) : List (Slot α) :=
  t.spawned ++ if t.keep then [t.left] else []

/-- What a turn puts at the back of the free queue. -/
def released (t : Turn α σ) : List (Slot α) :=
  if t.keep then [] else [t.left]

/-- The free queue after a turn. -/
def freeAfter (free : List (Slot α)) (t : Turn α σ) : List (Slot α) :=
  free.drop t.spawned.length ++ t.released

/-- The turn, with one more slot spawned before all others. -/
def spawning (slot : Slot α) (t : Turn α σ) : Turn α σ :=
  { t with spawned := slot :: t.spawned }

end Turn

/-- Plays a visit to its end. -/
def Visit.turn {α σ : Type} (slot : Slot α) : Visit α σ → List (Slot α) → Turn α σ
  | .done keep item state, _ => ⟨slot, [], keep, item, state⟩
  | .spawn _ next, [] => (next none).turn slot []
  | .spawn init next, fresh :: rest =>
    ((next (some fresh.item)).turn slot rest).spawning ⟨fresh.index, init fresh.item⟩

namespace Visit

variable {α σ : Type}

@[simp] theorem slot_turn (slot : Slot α) (v : Visit α σ) (free : List (Slot α)) :
    (v.turn slot free).slot = slot := by
  induction v generalizing free with
  | done => rfl
  | spawn init next ih =>
    cases free with
    | nil => exact ih none []
    | cons fresh rest => exact ih (some fresh.item) rest

/-- A turn spawns the slots at the front of the free queue, in their order. -/
theorem index_spawned_turn (slot : Slot α) (v : Visit α σ) (free : List (Slot α)) :
    ∃ rest, free.map (·.index) = (v.turn slot free).spawned.map (·.index) ++ rest := by
  induction v generalizing free with
  | done => exact ⟨_, rfl⟩
  | spawn init next ih =>
    cases free with
    | nil => exact ih none []
    | cons fresh rest =>
      obtain ⟨others, h⟩ := ih (some fresh.item) rest
      refine ⟨others, ?_⟩
      rw [List.map_cons, h]
      rfl

theorem length_spawned_turn_le (slot : Slot α) (v : Visit α σ) (free : List (Slot α)) :
    (v.turn slot free).spawned.length ≤ free.length := by
  obtain ⟨rest, h⟩ := v.index_spawned_turn slot free
  have hlen := congrArg List.length h
  simp only [List.length_map, List.length_append] at hlen
  omega

end Visit

namespace Pass

variable {α σ : Type}

/-- One visit of a pass in progress. -/
theorem run_eq (slot : Slot α) (v : Visit α σ) (p : Pass α σ) :
    run slot.index v p =
      { waiting := p.waiting
        behind := (v.turn slot p.free).queued.reverse ++ p.behind
        free := (v.turn slot p.free).freeAfter p.free
        state := (v.turn slot p.free).state } := by
  induction v generalizing p with
  | done keep item state =>
    cases keep with
    | true => simp [run, Visit.turn, Turn.queued, Turn.freeAfter, Turn.released, Turn.left]
    | false => simp [run, Visit.turn, Turn.queued, Turn.freeAfter, Turn.released, Turn.left]
  | spawn init next ih =>
    cases hfree : p.free with
    | nil =>
      rw [run, hfree, ih none p, hfree, Visit.turn]
    | cons fresh rest =>
      rw [run, hfree]
      simp only [ih (some fresh.item), Visit.turn]
      simp [Turn.spawning, Turn.queued, Turn.freeAfter, Turn.released, Turn.left]

end Pass

namespace Pool

variable {α σ : Type}

/-- The turns of some slots, one after the other. -/
def turnsOf (visit : σ → α → Visit α σ) :
    List (Slot α) → List (Slot α) → σ → List (Turn α σ)
  | [], _, _ => []
  | slot :: rest, free, state =>
    let t := (visit state slot.item).turn slot free
    t :: turnsOf visit rest (t.freeAfter free) t.state

/-- The turns of a pass. -/
def turns (p : Pool α) (visit : σ → α → Visit α σ) (state : σ) : List (Turn α σ) :=
  turnsOf visit p.active p.free state

/-- The state after some turns. -/
def stateAfter (state : σ) (turns : List (Turn α σ)) : σ :=
  turns.foldl (fun _ t => t.state) state

theorem slot_turnsOf (visit : σ → α → Visit α σ) (slots free : List (Slot α)) (state : σ) :
    (turnsOf visit slots free state).map (·.slot) = slots := by
  induction slots generalizing free state with
  | nil => rfl
  | cons slot rest ih => simp [turnsOf, ih]

theorem visitAll_eq (visit : σ → α → Visit α σ) (slots : List (Slot α)) (p : Pass α σ) :
    Pass.visitAll visit slots p =
      { waiting := []
        behind := ((turnsOf visit slots p.free p.state).flatMap (·.queued)).reverse ++ p.behind
        free := (turnsOf visit slots p.free p.state).foldl Turn.freeAfter p.free
        state := stateAfter p.state (turnsOf visit slots p.free p.state) } := by
  induction slots generalizing p with
  | nil => rfl
  | cons slot rest ih =>
    rw [Pass.visitAll, ih, Pass.run_eq]
    simp [turnsOf, stateAfter]

/-- **A pass and its turns.** -/
theorem tick_eq (p : Pool α) (visit : σ → α → Visit α σ) (state : σ) :
    p.tick visit state =
      (⟨(p.turns visit state).flatMap (·.queued),
          (p.turns visit state).foldl Turn.freeAfter p.free⟩,
        stateAfter state (p.turns visit state)) := by
  have hvisits := visitAll_eq visit p.active ⟨p.active, [], p.free, state⟩
  rw [tick, hvisits]
  simp [Pass.toPool, turns]

/-! ### The free queue of a whole pass -/

/-- The free queue after some turns, and the slots they spawned: a queue that was given the
released slots lost the spawned ones. -/
theorem free_turnsOf (visit : σ → α → Visit α σ) (slots free : List (Slot α)) (state : σ) :
    (turnsOf visit slots free state).foldl Turn.freeAfter free =
        (free ++ (turnsOf visit slots free state).flatMap (·.released)).drop
          ((turnsOf visit slots free state).flatMap (·.spawned)).length ∧
      ((turnsOf visit slots free state).flatMap (·.spawned)).map (·.index) =
        ((free ++ (turnsOf visit slots free state).flatMap (·.released)).take
          ((turnsOf visit slots free state).flatMap (·.spawned)).length).map (·.index) := by
  induction slots generalizing free state with
  | nil => simp [turnsOf]
  | cons slot rest ih =>
    have hle := (visit state slot.item).length_spawned_turn_le slot free
    obtain ⟨others, hfront⟩ := (visit state slot.item).index_spawned_turn slot free
    simp only [turnsOf, List.foldl_cons, List.flatMap_cons, List.length_append]
    generalize (visit state slot.item).turn slot free = t at hle hfront
    obtain ⟨hfree, hindex⟩ := ih (t.freeAfter free) t.state
    generalize turnsOf visit rest (t.freeAfter free) t.state = ts at hfree hindex
    -- What the later turns find is the queue without the slots that this turn has spawned.
    have hqueue : t.freeAfter free ++ ts.flatMap (·.released) =
        (free ++ (t.released ++ ts.flatMap (·.released))).drop t.spawned.length := by
      rw [Turn.freeAfter, List.drop_append_of_le_length hle, List.append_assoc]
    have hspawned : t.spawned.map (·.index) = (free.map (·.index)).take t.spawned.length := by
      rw [hfront, List.take_left' (List.length_map _)]
    rw [hqueue] at hfree hindex
    constructor
    · rw [hfree, List.drop_drop]
    · rw [List.take_add, List.map_append, List.map_append, ← hindex,
        List.take_append_of_le_length hle, List.map_take, hspawned]

theorem free_turns (p : Pool α) (visit : σ → α → Visit α σ) (state : σ) :
    (p.turns visit state).foldl Turn.freeAfter p.free =
      (p.free ++ (p.turns visit state).flatMap (·.released)).drop
        ((p.turns visit state).flatMap (·.spawned)).length :=
  (free_turnsOf visit p.active p.free state).1

theorem index_spawned (p : Pool α) (visit : σ → α → Visit α σ) (state : σ) :
    ((p.turns visit state).flatMap (·.spawned)).map (·.index) =
      ((p.free ++ (p.turns visit state).flatMap (·.released)).take
        ((p.turns visit state).flatMap (·.spawned)).length).map (·.index) :=
  (free_turnsOf visit p.active p.free state).2

end Pool

end BulletHell
