/-!
# Recycling pools

A pool has a fixed number of slots, made up front. Each slot is in one of two queues: the
active ones in order of activation, and the free ones in order of release. Nothing is added or
removed afterwards; an object that appears takes the slot that has been free for longest, with
whatever it was last used for still in it.

## Main definitions

* `Pool` — the two queues of slots.
* `Pool.spawn?` — activates a slot, if one is free.
* `Visit`, `Pool.tick` — one pass over the active slots. A visit may spawn and decides whether
  its slot stays active.
* `Pool.sweep` — a pass that spawns nothing.
* `Pool.clearWith`, `Pool.clear` — releases every slot.

## Implementation notes

During a pass the active queue consists of the slots that still wait for their visit and,
behind them, what the pass has put there so far. `Pass` keeps the two parts apart, the second
one in reverse. The pass ends when nobody waits any more, so slots that are spawned on the way
are not visited, even if they were visited and released earlier in the same pass.

A visit is written as a dialogue (`Visit`) rather than as a function on the pool, so that all
it can do to the queues is to ask for one spawn after another. It is told what the slot that it
was given held before; from that and its own `init` it knows everything about the new item.
-/

namespace BulletHell

/-- A slot and what is in it. -/
structure Slot (α : Type) where
  index : Nat
  item : α

/-- A pool of slots. Both queues begin with their oldest member. -/
structure Pool (α : Type) where
  active : List (Slot α)
  free : List (Slot α)

/-- What one visit does with a state `σ`: it may spawn into the pool, learning each time what
the slot was last used for (`none` when no slot was free), and ends with the item, the state,
and whether the slot stays active. -/
inductive Visit (α σ : Type) where
  | done (keep : Bool) (item : α) (state : σ)
  | spawn (init : α → α) (next : Option α → Visit α σ)

/-- A pass in progress, between two visits. -/
structure Pass (α σ : Type) where
  /-- Slots active since before the pass that were not visited yet. -/
  waiting : List (Slot α)
  /-- Slots queued behind them by the pass, newest first. -/
  behind : List (Slot α)
  free : List (Slot α)
  state : σ

namespace Pass

variable {α σ : Type}

/-- The queues of a pass that has ended, or would end here. -/
def toPool (p : Pass α σ) : Pool α :=
  ⟨p.waiting ++ p.behind.reverse, p.free⟩

/-- Runs one visit to its end. -/
def run (slot : Nat) : Visit α σ → Pass α σ → Pass α σ
  | .done keep item state, p =>
    if keep then { p with behind := ⟨slot, item⟩ :: p.behind, state := state }
    else { p with free := p.free ++ [⟨slot, item⟩], state := state }
  | .spawn init next, p =>
    match p.free with
    | [] => run slot (next none) p
    | fresh :: rest =>
      run slot (next (some fresh.item))
        { p with behind := ⟨fresh.index, init fresh.item⟩ :: p.behind, free := rest }

/-- Visits every waiting slot in order. -/
def visitAll (visit : σ → α → Visit α σ) : List (Slot α) → Pass α σ → Pass α σ
  | [], p => { p with waiting := [] }
  | slot :: rest, p =>
    visitAll visit rest (run slot.index (visit p.state slot.item) { p with waiting := rest })

end Pass

namespace Pool

variable {α σ : Type}

/-- A pool with all slots free. -/
def new (capacity : Nat) (make : Nat → α) : Pool α where
  active := []
  free := (List.range capacity).map fun i => ⟨i, make i⟩

def activeCount (p : Pool α) : Nat :=
  p.active.length

def freeCount (p : Pool α) : Nat :=
  p.free.length

def capacity (p : Pool α) : Nat :=
  p.active.length + p.free.length

/-- The active items in queue order. -/
def items (p : Pool α) : List α :=
  p.active.map (·.item)

/-- Activates the slot that has been free for longest; `none` when all are active. -/
def spawn? (p : Pool α) (init : α → α) : Option (Pool α) :=
  match p.free with
  | [] => none
  | slot :: rest => some ⟨p.active ++ [⟨slot.index, init slot.item⟩], rest⟩

/-- Visits every slot that is active at the start, in queue order. -/
def tick (p : Pool α) (visit : σ → α → Visit α σ) (state : σ) : Pool α × σ :=
  let pass := Pass.visitAll visit p.active ⟨p.active, [], p.free, state⟩
  (pass.toPool, pass.state)

/-- A pass that spawns nothing. The visit says whether the slot stays active, and what becomes
of the item and the state. -/
def sweep (p : Pool α) (visit : σ → α → Bool × α × σ) (state : σ) : Pool α × σ :=
  p.tick (fun state item =>
    let (keep, item, state) := visit state item
    .done keep item state) state

/-- A pass in which every item changes for itself or is released. -/
def retain (p : Pool α) (visit : α → Bool × α) : Pool α :=
  (p.sweep (fun () item =>
    let (keep, item) := visit item
    (keep, item, ())) ()).1

/-- A pass in which every item changes for itself and stays. -/
def update (p : Pool α) (change : α → α) : Pool α :=
  p.retain fun item => (true, change item)

/-- A last visit to each of some slots, in order. -/
def dismiss (visit : σ → α → α × σ) : List (Slot α) → σ → List (Slot α) × σ
  | [], state => ([], state)
  | slot :: rest, state =>
    let (item, state) := visit state slot.item
    let (slots, state) := dismiss visit rest state
    (⟨slot.index, item⟩ :: slots, state)

/-- Releases every active slot, oldest first, after a last visit to it. -/
def clearWith (p : Pool α) (visit : σ → α → α × σ) (state : σ) : Pool α × σ :=
  let (slots, state) := dismiss visit p.active state
  (⟨[], p.free ++ slots⟩, state)

/-- Releases every active slot, oldest first. -/
def clear (p : Pool α) : Pool α :=
  (p.clearWith (fun state item => (item, state)) ()).1

end Pool

end BulletHell
