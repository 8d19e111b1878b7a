import BulletHell.Proofs.Pool.Conservation
import BulletHell.Proofs.Pool.Turns

/-!
# A pass sees a snapshot

A pass goes once around a queue that changes under its hands. This file says that it is one full
turn and no more: the visits are those of the slots that were active when the pass began, each of
them once and in their order, with what they held then. A slot that is spawned on the way waits
for the next pass, even if the same slot was visited and released earlier in this one.

Seen from outside, where indices and free slots do not show, a pool is then a list of bounded
length: a spawn appends if there is room, a pass replaces every item in place by what its visit
spawned and by itself if it was kept, and a clearing leaves nothing.

## Main definitions

* `Moment.Visits` — the slots visited on the way to a moment of a pass
* `Visit.Adds`, `Roster.Goes`, `Roster.Does` — the same calls on a list of bounded length

## Main results

* `Moment.Visits.split` — the invariant of the loop: what waits, and what was queued behind it
* `Pool.goes_tick`, `Pool.does_call` — a pool does what the list does
* `Pool.pass_sees_snapshot`

## Implementation notes

What a recycled slot was last used for does not show in the list, and a spawn may make use of it.
So the list of bounded length is not a function of its calls: any item will do as the one that a
new item is made from.
-/

namespace BulletHell

variable {α σ : Type}

/-! ### The visits of a pass -/

namespace Moment

variable {visit : σ → α → Visit α σ} {m m' : Moment α σ}

/-- The slot whose visit begins now, if one does. -/
def beginning (m : Moment α σ) : List (Slot α) :=
  match m.visiting, m.left, m.pool.active with
  | none, _ + 1, slot :: _ => [slot]
  | _, _, _ => []

/-- Some steps lead to a moment, and these are the slots visited on the way, each as it was when
its visit began. -/
inductive Visits (visit : σ → α → Visit α σ) (m : Moment α σ) :
    List (Slot α) → Moment α σ → Prop where
  | refl : Visits visit m [] m
  | tail {slots : List (Slot α)} {m₁ m₂ : Moment α σ} (h : Visits visit m slots m₁)
      (hstep : m₁.step visit = some m₂) : Visits visit m (slots ++ m₁.beginning) m₂

theorem Visits.reaches {slots : List (Slot α)} (h : Visits visit m slots m') :
    Reaches visit m m' := by
  induction h with
  | refl => exact .refl
  | tail _ hstep ih => exact ih.tail hstep

theorem Reaches.visits (h : Reaches visit m m') : ∃ slots, Visits visit m slots m' := by
  induction h with
  | refl => exact ⟨[], .refl⟩
  | tail _ hstep ih =>
    obtain ⟨slots, hslots⟩ := ih
    exact ⟨_, hslots.tail hstep⟩

/-- The steps of a pass are determined, so it ends in one way only. -/
theorem Reaches.eq_of_final {m₁ m₂ : Moment α σ} (h₁ : Reaches visit m m₁)
    (h₂ : Reaches visit m m₂) (hfinal₁ : m₁.step visit = none) (hfinal₂ : m₂.step visit = none) :
    m₁ = m₂ := by
  have hdetermined : Relator.RightUnique fun m m' : Moment α σ => step visit m = some m' :=
    fun _ _ _ h h' => Option.some.inj (h.symm.trans h')
  have hstay : ∀ {a b : Moment α σ}, a.step visit = none → Reaches visit a b → a = b := by
    intro a b hfinal h
    rcases Relation.ReflTransGen.cases_head h with heq | ⟨c, hstep, -⟩
    · exact heq
    · rw [hfinal] at hstep
      cases hstep
  rcases Relation.ReflTransGen.total_of_right_unique hdetermined h₁ h₂ with h | h
  · exact hstay hfinal₁ h
  · exact (hstay hfinal₂ h).symm

/-- One step of a pass, seen on the active queue: either no visit begins and the queue grows at
its back at most, or the visit of its first slot begins. -/
theorem beginning_step (h : m.step visit = some m') :
    (m.beginning = [] ∧ m'.left = m.left ∧ ∃ more, m'.pool.active = m.pool.active ++ more) ∨
      ∃ slot, m.beginning = [slot] ∧ m.left = m'.left + 1 ∧
        m.pool.active = slot :: m'.pool.active := by
  obtain ⟨⟨active, free⟩, left, visiting, state⟩ := m
  match visiting with
  | some (slot, .spawn init next) =>
    cases free with
    | nil =>
      obtain rfl := Option.some.inj h
      exact .inl ⟨rfl, rfl, [], (List.append_nil _).symm⟩
    | cons fresh rest =>
      obtain rfl := Option.some.inj h
      exact .inl ⟨rfl, rfl, _, rfl⟩
  | some (slot, .done true item _) =>
    obtain rfl := Option.some.inj h
    exact .inl ⟨rfl, rfl, _, rfl⟩
  | some (slot, .done false item _) =>
    obtain rfl := Option.some.inj h
    exact .inl ⟨rfl, rfl, [], (List.append_nil _).symm⟩
  | none =>
    cases left with
    | zero => cases h
    | succ left =>
      cases active with
      | nil => cases h
      | cons slot rest =>
        obtain rfl := Option.some.inj h
        exact .inr ⟨slot, rfl, rfl, rfl⟩

/-- **The loop invariant of a pass.** The slots of the beginning are those visited so far and
those that still wait, and the active queue has what the pass has queued behind the latter. -/
theorem Visits.split {p : Pool α} {state : σ} {slots : List (Slot α)}
    (h : Visits visit (start p state) slots m) :
    ∃ waiting behind, p.active = slots ++ waiting ∧ waiting.length = m.left ∧
      m.pool.active = waiting ++ behind := by
  induction h with
  | refl => exact ⟨p.active, [], rfl, rfl, (List.append_nil _).symm⟩
  | tail _ hstep ih =>
    obtain ⟨waiting, behind, hslots, hlen, hactive⟩ := ih
    rcases beginning_step hstep with ⟨hnone, hleft, more, hmore⟩ | ⟨slot, hone, hleft, hhead⟩
    · refine ⟨waiting, behind ++ more, ?_, hlen.trans hleft.symm, ?_⟩
      · rw [hnone, List.append_nil, hslots]
      · rw [hmore, hactive, List.append_assoc]
    · -- Somebody still waits, and that is who stands at the front of the queue.
      cases waiting with
      | nil =>
        rw [hleft, List.length_nil] at hlen
        omega
      | cons first waiting =>
        rw [hactive, List.cons_append] at hhead
        obtain ⟨rfl, hrest⟩ := List.cons.inj hhead
        refine ⟨waiting, behind, ?_, ?_, hrest.symm⟩
        · rw [hone, hslots, List.append_assoc, List.singleton_append]
        · rw [List.length_cons, hleft] at hlen
          omega

/-- Where a pass ends nobody waits any more. -/
theorem Visits.eq_active {p : Pool α} {state : σ} {slots : List (Slot α)}
    (h : Visits visit (start p state) slots m) (hvisiting : m.visiting = none)
    (hfinal : m.step visit = none) : slots = p.active := by
  obtain ⟨waiting, behind, hslots, hlen, hactive⟩ := h.split
  cases waiting with
  | nil => rw [hslots, List.append_nil]
  | cons first waiting =>
    rw [List.length_cons] at hlen
    simp [step, hvisiting, ← hlen, hactive] at hfinal

end Moment

/-! ### Lists of bounded length -/

/-- A visit adds these items to a list that has room for so many more, and ends in this way. The
last item that was in a recycled place may be anything. -/
inductive Visit.Adds : Visit α σ → Nat → List α → Bool → α → σ → Prop where
  | done {room : Nat} {keep : Bool} {item : α} {state : σ} :
      Adds (.done keep item state) room [] keep item state
  | refused {init : α → α} {next : Option α → Visit α σ} {added : List α} {keep : Bool}
      {item : α} {state : σ} (h : Adds (next none) 0 added keep item state) :
      Adds (.spawn init next) 0 added keep item state
  | granted {init : α → α} {next : Option α → Visit α σ} {room : Nat} {last : α}
      {added : List α} {keep : Bool} {item : α} {state : σ}
      (h : Adds (next (some last)) room added keep item state) :
      Adds (.spawn init next) (room + 1) (init last :: added) keep item state

namespace Roster

/-- A pass over a list of at most `capacity` items. Each waiting item is replaced by what its visit
adds and by itself if it is kept; while it is visited it still takes up its place. -/
inductive Goes (visit : σ → α → Visit α σ) (capacity : Nat) :
    List α → List α → σ → List α → σ → Prop where
  | nil {behind : List α} {state : σ} : Goes visit capacity [] behind state behind state
  | cons {item item' : α} {waiting behind added items : List α} {keep : Bool}
      {state state' last : σ}
      (hvisit : (visit state item).Adds (capacity - (1 + waiting.length + behind.length)) added
        keep item' state')
      (h : Goes visit capacity waiting (behind ++ added ++ if keep then [item'] else []) state'
        items last) :
      Goes visit capacity (item :: waiting) behind state items last

/-- A call on a list of at most `capacity` items. -/
inductive Does (capacity : Nat) : List α → Pool.Call α → List α → Prop where
  | spawn {items : List α} {init : α → α} (last : α) (hroom : items.length < capacity) :
      Does capacity items (.spawn init) (items ++ [init last])
  | full {items : List α} {init : α → α} (hfull : capacity ≤ items.length) :
      Does capacity items (.spawn init) items
  | tick {σ : Type} {visit : σ → α → Visit α σ} {items items' : List α} {state state' : σ}
      (h : Goes visit capacity items [] state items' state') :
      Does capacity items (.tick visit state) items'
  | clear {σ : Type} {visit : σ → α → α × σ} {items : List α} {state : σ} :
      Does capacity items (.clear visit state) []

end Roster

namespace Turn

/-- A turn as it shows in the list. -/
theorem adds_turn (slot : Slot α) (v : Visit α σ) (free : List (Slot α)) :
    v.Adds free.length ((v.turn slot free).spawned.map (·.item)) (v.turn slot free).keep
      (v.turn slot free).item (v.turn slot free).state := by
  induction v generalizing free with
  | done => exact .done
  | spawn init next ih =>
    cases free with
    | nil => exact .refused (ih none [])
    | cons fresh rest => exact .granted (ih (some fresh.item) rest)

theorem items_queued (t : Turn α σ) :
    t.queued.map (·.item) = t.spawned.map (·.item) ++ if t.keep then [t.item] else [] := by
  cases hkeep : t.keep <;> simp [queued, left, hkeep]

/-- A turn takes from the free queue as many slots as it queues beyond its own. -/
theorem length_turn (slot : Slot α) (v : Visit α σ) (free : List (Slot α)) :
    ((v.turn slot free).freeAfter free).length + (v.turn slot free).queued.length =
      1 + free.length := by
  have hle := v.length_spawned_turn_le slot free
  cases hkeep : (v.turn slot free).keep with
  | true =>
    simp only [freeAfter, released, queued, hkeep, if_true, List.length_append, List.length_drop,
      List.length_nil, List.length_singleton]
    omega
  | false =>
    simp only [freeAfter, released, queued, hkeep, Bool.false_eq_true, if_false,
      List.length_append, List.length_drop, List.length_nil, List.length_singleton]
    omega

end Turn

namespace Pool

open Roster

theorem goes_turnsOf (visit : σ → α → Visit α σ) (capacity : Nat) (slots free : List (Slot α))
    (behind : List α) (state : σ) (h : slots.length + behind.length + free.length = capacity) :
    Goes visit capacity (slots.map (·.item)) behind state
      (behind ++ ((turnsOf visit slots free state).flatMap (·.queued)).map (·.item))
      (stateAfter state (turnsOf visit slots free state)) := by
  induction slots generalizing free behind state with
  | nil => simpa [turnsOf, stateAfter] using Goes.nil
  | cons slot rest ih =>
    have hadds := Turn.adds_turn slot (visit state slot.item) free
    have hlen := Turn.length_turn slot (visit state slot.item) free
    simp only [turnsOf, List.flatMap_cons, List.map_append, List.map_cons]
    generalize (visit state slot.item).turn slot free = t at hadds hlen
    have hroom : free.length = capacity - (1 + (rest.map (·.item)).length + behind.length) := by
      rw [List.length_cons] at h
      rw [List.length_map]
      omega
    rw [hroom] at hadds
    refine .cons hadds ?_
    rw [List.append_assoc behind, ← t.items_queued, ← List.append_assoc behind]
    refine ih (t.freeAfter free) (behind ++ t.queued.map (·.item)) t.state ?_
    rw [List.length_cons] at h
    rw [List.length_append, List.length_map]
    omega

/-- **A pass, as it shows in the list.** -/
theorem goes_tick (p : Pool α) (visit : σ → α → Visit α σ) (state : σ) :
    Goes visit p.capacity p.items [] state (p.tick visit state).1.items
      (p.tick visit state).2 := by
  have h := goes_turnsOf visit p.capacity p.active p.free [] state
    (by rw [capacity, List.length_nil, Nat.add_zero])
  rw [List.nil_append] at h
  rw [tick_eq]
  exact h

theorem capacity_call (p : Pool α) (c : Call α) : (p.call c).capacity = p.capacity := by
  have h := (p.indices_call c).length_eq
  rwa [length_indices, length_indices] at h

/-- **A call, as it shows in the list.** -/
theorem does_call (p : Pool α) (c : Call α) : Does p.capacity p.items c (p.call c).items := by
  have hlen : p.capacity = p.items.length + p.free.length := by
    rw [capacity, items, List.length_map]
  cases c with
  | spawn init =>
    cases hfree : p.free with
    | nil =>
      rw [call, spawn?, hfree]
      exact .full (by simp [hlen, hfree])
    | cons fresh rest =>
      have hitems : (p.call (.spawn init)).items = p.items ++ [init fresh.item] := by
        simp [call, spawn?, hfree, items]
      rw [hitems]
      exact .spawn fresh.item (by rw [hlen, hfree, List.length_cons]; omega)
  | tick visit state => exact .tick (p.goes_tick visit state)
  | clear visit state => exact .clear

/-- A pass in which every turn keeps its slot and spawns nothing. -/
theorem freeAfter_of_quiet {turns : List (Turn α σ)}
    (h : ∀ t ∈ turns, t.keep = true ∧ t.spawned = []) (free : List (Slot α)) :
    turns.foldl Turn.freeAfter free = free ∧
      turns.flatMap (·.queued) = turns.map (·.left) := by
  induction turns generalizing free with
  | nil => exact ⟨rfl, rfl⟩
  | cons t turns ih =>
    obtain ⟨hkeep, hspawned⟩ := h t List.mem_cons_self
    obtain ⟨hfree, hqueued⟩ := ih (fun u hu => h u (List.mem_cons_of_mem _ hu)) free
    have hafter : t.freeAfter free = free := by
      simp [Turn.freeAfter, Turn.released, hkeep, hspawned]
    refine ⟨by rw [List.foldl_cons, hafter, hfree], ?_⟩
    rw [List.flatMap_cons, hqueued, List.map_cons]
    simp [Turn.queued, hkeep, hspawned]

/-- **A pass sees a snapshot.** Its visits are those of the slots that were active when it began,
each once and in order, and as they were then. Afterwards the active queue has what each turn
spawned, followed by its slot if that was kept, turn by turn; the free queue has lost the spawned
slots at its front, and was given the released ones at its back in the order of their release. So
a pool does what a list of bounded length does, and a pass in which every turn keeps its slot and
spawns nothing leaves both queues in their order. -/
theorem pass_sees_snapshot (p : Pool α) (visit : σ → α → Visit α σ) (state : σ) :
    let turns := p.turns visit state
    let spawned := turns.flatMap (·.spawned)
    let released := turns.flatMap (·.released)
    (∀ slots m, Moment.Visits visit (.start p state) slots m →
        slots <+: p.active ∧
          (m.step visit = none → slots = p.active ∧ (m.pool, m.state) = p.tick visit state)) ∧
      (∃ m, Moment.Visits visit (.start p state) p.active m ∧ m.step visit = none) ∧
      turns.map (·.slot) = p.active ∧
      p.tick visit state = (⟨turns.flatMap (·.queued), (p.free ++ released).drop spawned.length⟩,
        stateAfter state turns) ∧
      spawned.map (·.index) = ((p.free ++ released).take spawned.length).map (·.index) ∧
      Goes visit p.capacity p.items [] state (p.tick visit state).1.items
        (p.tick visit state).2 ∧
      (∀ c, (p.call c).capacity = p.capacity ∧ Does p.capacity p.items c (p.call c).items) ∧
      ((∀ t ∈ turns, t.keep = true ∧ t.spawned = []) →
        p.tick visit state = (⟨turns.map (·.left), p.free⟩, stateAfter state turns) ∧
          (turns.map (·.left)).map (·.index) = p.active.map (·.index)) := by
  intro turns spawned released
  obtain ⟨mEnd, hreach, hend, hidle, htick⟩ := p.reaches_tick visit state
  obtain ⟨visited, hvisits⟩ := hreach.visits
  have hslots : turns.map (·.slot) = p.active := slot_turnsOf visit p.active p.free state
  refine ⟨fun slots m h => ⟨?_, fun hfinal => ?_⟩, ⟨mEnd, ?_, hend⟩, hslots, ?_,
    p.index_spawned visit state, p.goes_tick visit state,
    fun c => ⟨p.capacity_call c, p.does_call c⟩, fun hquiet => ⟨?_, ?_⟩⟩
  · obtain ⟨waiting, -, hsplit, -⟩ := h.split
    exact ⟨waiting, hsplit.symm⟩
  · obtain rfl := h.reaches.eq_of_final hreach hfinal hend
    exact ⟨h.eq_active hidle hend, htick⟩
  · rw [← hvisits.eq_active hidle hend]
    exact hvisits
  · rw [tick_eq, p.free_turns visit state]
  · obtain ⟨hfree, hqueued⟩ := freeAfter_of_quiet hquiet p.free
    rw [tick_eq, hqueued, hfree]
  · rw [← hslots, List.map_map, List.map_map]
    rfl

end Pool

end BulletHell
