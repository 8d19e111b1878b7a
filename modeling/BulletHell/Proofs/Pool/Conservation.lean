import BulletHell.Proofs.Pool.Moment
import Mathlib.Data.List.Perm.Basic

/-!
# Pool slots are conserved

Every slot of a pool is in exactly one of its two queues, whatever has been done to the pool.
Inside a pass one slot is in neither, the one that is being visited; with it counted in, the
same holds at every moment of the pass, however many slots the visit has spawned by then and
whether or not they were released earlier in the same pass.

It is the indices that are counted, not only how many there are: a queue with one index twice and
another one missing has the right length.

## Main definitions

* `Pool.indices`, `Moment.indices` — the slots of both queues, and the one being visited
* `Pool.Call`, `Pool.call` — what an owner does with a pool

## Main results

* `Moment.indices_step`, `Moment.Reaches.indices` — one step and a whole pass
* `Pool.indices_call` — one call
* `Pool.slots_conserved` — any calls, and every moment of a pass after them
-/

namespace BulletHell

variable {α σ : Type}

namespace Pool

/-- The indices in the two queues. -/
def indices (p : Pool α) : List Nat :=
  (p.active ++ p.free).map (·.index)

theorem length_indices (p : Pool α) : p.indices.length = p.active.length + p.free.length := by
  simp [indices]

/-- A slot that goes from the front of the free queue to the back of the active one. -/
theorem indices_spawn (active rest : List (Slot α)) (fresh : Slot α) (item : α) :
    (Pool.mk (active ++ [⟨fresh.index, item⟩]) rest).indices.Perm
      (Pool.mk active (fresh :: rest)).indices := by
  simp [indices]

end Pool

namespace Moment

/-- The indices in the two queues and the one being visited. -/
def indices (m : Moment α σ) : List Nat :=
  (m.visiting.map (·.1)).toList ++ m.pool.indices

/-- **One step of a pass** moves slots, but neither loses nor doubles one. -/
theorem indices_step {visit : σ → α → Visit α σ} {m m' : Moment α σ}
    (h : m.step visit = some m') : m'.indices.Perm m.indices := by
  obtain ⟨⟨active, free⟩, left, visiting, state⟩ := m
  match visiting with
  | some (slot, .spawn init next) =>
    cases free with
    | nil =>
      obtain rfl := Option.some.inj h
      exact .refl _
    | cons fresh rest =>
      obtain rfl := Option.some.inj h
      exact (Pool.indices_spawn active rest fresh _).cons slot
  | some (slot, .done true item _) =>
    obtain rfl := Option.some.inj h
    simp [indices, Pool.indices]
  | some (slot, .done false item _) =>
    obtain rfl := Option.some.inj h
    simp [indices, Pool.indices, ← List.append_assoc]
  | none =>
    cases left with
    | zero => cases h
    | succ left =>
      cases active with
      | nil => cases h
      | cons slot rest =>
        obtain rfl := Option.some.inj h
        exact .refl _

/-- **A whole pass**, at each of its moments. -/
theorem Reaches.indices {visit : σ → α → Visit α σ} {m m' : Moment α σ}
    (h : Reaches visit m m') : m'.indices.Perm m.indices := by
  induction h with
  | refl => exact .refl _
  | tail _ hstep ih => exact (indices_step hstep).trans ih

end Moment

namespace Pool

theorem indices_new (capacity : Nat) (make : Nat → α) :
    (new capacity make).indices = List.range capacity := by
  simp [indices, new, Function.comp_def]

theorem indices_spawn? {p p' : Pool α} {init : α → α} (h : p.spawn? init = some p') :
    p'.indices.Perm p.indices := by
  obtain ⟨active, free⟩ := p
  cases free with
  | nil => cases h
  | cons fresh rest =>
    obtain rfl := Option.some.inj h
    exact indices_spawn active rest fresh _

theorem indices_tick (p : Pool α) (visit : σ → α → Visit α σ) (state : σ) :
    (p.tick visit state).1.indices.Perm p.indices := by
  obtain ⟨m, hsteps, -, hvisiting, htick⟩ := p.reaches_tick visit state
  have hperm := hsteps.indices
  rw [Moment.indices, hvisiting] at hperm
  rw [← htick]
  exact hperm

theorem index_dismiss (visit : σ → α → α × σ) (slots : List (Slot α)) (state : σ) :
    (dismiss visit slots state).1.map (·.index) = slots.map (·.index) := by
  induction slots generalizing state with
  | nil => rfl
  | cons slot rest ih => simp [dismiss, ih]

theorem indices_clearWith (p : Pool α) (visit : σ → α → α × σ) (state : σ) :
    (p.clearWith visit state).1.indices.Perm p.indices := by
  have hclear : (p.clearWith visit state).1 = ⟨[], p.free ++ (dismiss visit p.active state).1⟩ :=
    rfl
  rw [hclear, indices, indices, List.nil_append, List.map_append, index_dismiss, List.map_append]
  exact List.perm_append_comm

/-! ### Calls -/

/-- What an owner does with a pool. All callbacks are arbitrary. -/
inductive Call (α : Type) : Type 1 where
  | spawn (init : α → α)
  | tick {σ : Type} (visit : σ → α → Visit α σ) (state : σ)
  | clear {σ : Type} (visit : σ → α → α × σ) (state : σ)

/-- The pool after a call. A spawn that fails leaves it as it was. -/
def call (p : Pool α) : Call α → Pool α
  | .spawn init => (p.spawn? init).getD p
  | .tick visit state => (p.tick visit state).1
  | .clear visit state => (p.clearWith visit state).1

/-- **One call** keeps the slots. -/
theorem indices_call (p : Pool α) (c : Call α) : (p.call c).indices.Perm p.indices := by
  cases c with
  | spawn init =>
    cases h : p.spawn? init with
    | none => simp [call, h]
    | some p' =>
      rw [call, h]
      exact indices_spawn? h
  | tick visit state => exact p.indices_tick visit state
  | clear visit state => exact p.indices_clearWith visit state

theorem indices_calls (p : Pool α) (calls : List (Call α)) :
    (calls.foldl call p).indices.Perm p.indices := by
  induction calls generalizing p with
  | nil => exact .refl _
  | cons c calls ih => exact (ih (p.call c)).trans (p.indices_call c)

theorem spawn?_eq_none_iff (p : Pool α) (init : α → α) :
    p.spawn? init = none ↔ p.free = [] := by
  cases hfree : p.free <;> simp [spawn?, hfree]

end Pool

/-- A slot that a visit may be given: it is not the visited one, and it is in range, also when
the slots before the visited one and those behind it are numbered each from zero. -/
def Moment.Grants (capacity slot fresh : Nat) : Prop :=
  fresh < capacity ∧ (fresh < slot ∨ slot < fresh ∧ fresh - slot - 1 < capacity - slot - 1)

namespace Moment

variable {visit : σ → α → Visit α σ} {capacity slot : Nat} {m : Moment α σ}

/-- A visit that asks for a slot is given one that is free, and is refused exactly when all
slots but its own are active. -/
theorem step_spawn (h : m.indices.Perm (List.range capacity)) {init : α → α}
    {next : Option α → Visit α σ} (hvisiting : m.visiting = some (slot, .spawn init next)) :
    (m.pool.free = [] ∧ m.pool.active.length + 1 = capacity ∧
        m.step visit = some { m with visiting := some (slot, next none) }) ∨
      ∃ fresh rest, m.pool.free = fresh :: rest ∧ m.pool.active.length + 1 < capacity ∧
        Grants capacity slot fresh.index ∧
        m.step visit = some { m with
          pool := ⟨m.pool.active ++ [⟨fresh.index, init fresh.item⟩], rest⟩
          visiting := some (slot, next (some fresh.item)) } := by
  have hlen := h.length_eq
  rw [indices, hvisiting, List.length_append, Pool.length_indices, List.length_range] at hlen
  cases hfree : m.pool.free with
  | nil =>
    refine .inl ⟨rfl, ?_, by simp [step, hvisiting, hfree]⟩
    rw [hfree] at hlen
    simp at hlen
    omega
  | cons fresh rest =>
    refine .inr ⟨fresh, rest, rfl, ?_, ?_, by simp [step, hvisiting, hfree]⟩
    · rw [hfree] at hlen
      simp at hlen
      omega
    · have hnodup : m.indices.Nodup := h.nodup_iff.mpr List.nodup_range
      have hbelow : ∀ i ∈ m.indices, i < capacity :=
        fun i hi => List.mem_range.mp (h.mem_iff.mp hi)
      rw [indices, hvisiting, Pool.indices, hfree] at hnodup hbelow
      have hfresh : fresh.index < capacity := hbelow _ (by simp)
      have hne : slot ≠ fresh.index := by
        rintro rfl
        simp at hnodup
      exact ⟨hfresh, by omega⟩

end Moment

namespace Pool

/-- **Slots are conserved.** After any calls both queues together hold every index below the
capacity exactly once, and a spawn fails exactly when all slots are active. A further pass goes
through moments at each of which the same holds with the visited slot counted in, and a visit is
given any slot but its own. -/
theorem slots_conserved (capacity : Nat) (make : Nat → α) (calls : List (Call α)) :
    let p := calls.foldl call (new capacity make)
    p.indices.Perm (List.range capacity) ∧ (∀ i ∈ p.indices, i < capacity) ∧
      (∀ init, p.spawn? init = none ↔ p.active.length = capacity) ∧
      ∀ {σ : Type} (visit : σ → α → Visit α σ) (state : σ),
        (∃ m, Moment.Reaches visit (Moment.start p state) m ∧ m.step visit = none ∧
          m.visiting = none ∧ (m.pool, m.state) = p.tick visit state) ∧
        ∀ m, Moment.Reaches visit (Moment.start p state) m →
          m.indices.Perm (List.range capacity) ∧ (∀ i ∈ m.indices, i < capacity) ∧
          ∀ slot init next, m.visiting = some (slot, .spawn init next) →
            (m.pool.free = [] ∧ m.pool.active.length + 1 = capacity ∧
              m.step visit = some { m with visiting := some (slot, next none) }) ∨
            ∃ fresh rest, m.pool.free = fresh :: rest ∧ m.pool.active.length + 1 < capacity ∧
              Moment.Grants capacity slot fresh.index ∧
              m.step visit = some { m with
                pool := ⟨m.pool.active ++ [⟨fresh.index, init fresh.item⟩], rest⟩
                visiting := some (slot, next (some fresh.item)) } := by
  intro p
  have hperm : p.indices.Perm (List.range capacity) := by
    have h := indices_calls (new capacity make) calls
    rwa [indices_new] at h
  have hbelow : ∀ {l : List Nat}, l.Perm (List.range capacity) → ∀ i ∈ l, i < capacity :=
    fun h i hi => List.mem_range.mp (h.mem_iff.mp hi)
  refine ⟨hperm, hbelow hperm, fun init => ?_, fun visit state => ⟨?_, fun m hm => ?_⟩⟩
  · have hlen := hperm.length_eq
    rw [length_indices, List.length_range] at hlen
    rw [spawn?_eq_none_iff, ← List.length_eq_zero_iff]
    omega
  · exact p.reaches_tick visit state
  · have hmoment : m.indices.Perm (List.range capacity) := hm.indices.trans hperm
    exact ⟨hmoment, hbelow hmoment, fun slot init next h => Moment.step_spawn hmoment h⟩

end Pool

end BulletHell
