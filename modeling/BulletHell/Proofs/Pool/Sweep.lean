import BulletHell.Pool

/-!
# Sweeps

A sweep is a pass that spawns nothing, so its visits are a plain recursion over the active slots
and need no queue: what is kept stays in order, and what is released goes behind the free slots
in order. Two sweeps that take related states through the same items come out with the same
pool.

## Main definitions

* `Pool.sweepSlots` — the visits of a sweep, and what they come to
* `Pool.visits` — what each visit begins with
* `Pool.trySweep` — a sweep whose visits may fail

## Main results

* `Pool.sweep_eq` — a sweep and its visits
* `Pool.told_sweepSlots` — what is told in a sweep
* `Pool.sweep_course` — what a sweep keeps
* `Pool.trySweep_eq` — a sweep that does not fail
* `Pool.sweep_alike` — two sweeps side by side
* `Pool.update_eq` — a change to every item
-/

namespace BulletHell

namespace Pool

variable {α σ σ' : Type}

/-- The visits of a sweep: the slots that are kept, those that are released, and the state in
the end. -/
def sweepSlots (visit : σ → α → Bool × α × σ) :
    List (Slot α) → σ → List (Slot α) × List (Slot α) × σ
  | [], state => ([], [], state)
  | slot :: rest, state =>
    let (keep, item, state) := visit state slot.item
    let (kept, released, state) := sweepSlots visit rest state
    if keep then (⟨slot.index, item⟩ :: kept, released, state)
    else (kept, ⟨slot.index, item⟩ :: released, state)

/-- One visit, then the others. -/
theorem sweepSlots_cons (visit : σ → α → Bool × α × σ) (slot : Slot α) (rest : List (Slot α))
    (state : σ) :
    sweepSlots visit (slot :: rest) state =
      if (visit state slot.item).1 then
        (⟨slot.index, (visit state slot.item).2.1⟩ ::
            (sweepSlots visit rest (visit state slot.item).2.2).1,
          (sweepSlots visit rest (visit state slot.item).2.2).2)
      else
        ((sweepSlots visit rest (visit state slot.item).2.2).1,
          ⟨slot.index, (visit state slot.item).2.1⟩ ::
            (sweepSlots visit rest (visit state slot.item).2.2).2.1,
          (sweepSlots visit rest (visit state slot.item).2.2).2.2) :=
  rfl

theorem visitAll_done (visit : σ → α → Bool × α × σ) (slots : List (Slot α)) (p : Pass α σ) :
    Pass.visitAll (fun state item =>
        .done (visit state item).1 (visit state item).2.1 (visit state item).2.2) slots p =
      { waiting := []
        behind := (sweepSlots visit slots p.state).1.reverse ++ p.behind
        free := p.free ++ (sweepSlots visit slots p.state).2.1
        state := (sweepSlots visit slots p.state).2.2 } := by
  induction slots generalizing p with
  | nil => simp [Pass.visitAll, sweepSlots]
  | cons slot rest ih =>
    rw [Pass.visitAll, ih]
    cases hkeep : (visit p.state slot.item).1 <;> simp [Pass.run, sweepSlots, hkeep]

/-- **A sweep is its visits.** -/
theorem sweep_eq (p : Pool α) (visit : σ → α → Bool × α × σ) (state : σ) :
    p.sweep visit state =
      (⟨(sweepSlots visit p.active state).1, p.free ++ (sweepSlots visit p.active state).2.1⟩,
        (sweepSlots visit p.active state).2.2) := by
  have hvisits := visitAll_done visit p.active ⟨p.active, [], p.free, state⟩
  rw [sweep, tick]
  simp only [hvisits, Pass.toPool]
  simp

/-- Each slot is either kept or released. -/
theorem sweepSlots_indices (visit : σ → α → Bool × α × σ) (slots : List (Slot α)) (state : σ) :
    ((sweepSlots visit slots state).1.map (·.index) ++
        (sweepSlots visit slots state).2.1.map (·.index)).Perm (slots.map (·.index)) := by
  induction slots generalizing state with
  | nil => exact List.Perm.refl _
  | cons slot rest ih =>
    rw [sweepSlots_cons]
    split
    · exact (ih _).cons slot.index
    · exact List.perm_middle.trans ((ih _).cons slot.index)

/-! ### One visit after the other -/

/-- The visits of a sweep: each item, with the state that its visit begins in. -/
def visits (visit : σ → α → Bool × α × σ) : List (Slot α) → σ → List (σ × α)
  | [], _ => []
  | slot :: rest, state => (state, slot.item) :: visits visit rest (visit state slot.item).2.2

/-- **What a sweep tells** is told in its visits, one after the other, if each visit adds to it. -/
theorem told_sweepSlots {β : Type} {visit : σ → α → Bool × α × σ}
    {visit' : σ' → α → Bool × α × σ'} (base : σ' → σ) (told : σ' → List β)
    (tells : σ → α → List β)
    (hvisit : ∀ state' item, base (visit' state' item).2.2 = (visit (base state') item).2.2 ∧
      told (visit' state' item).2.2 = told state' ++ tells (base state') item)
    (slots : List (Slot α)) (state' : σ') :
    told (sweepSlots visit' slots state').2.2 =
      told state' ++ (visits visit slots (base state')).flatMap fun v => tells v.1 v.2 := by
  induction slots generalizing state' with
  | nil => exact (List.append_nil _).symm
  | cons slot rest ih =>
    obtain ⟨hbase, htold⟩ := hvisit state' slot.item
    have hrest := ih (visit' state' slot.item).2.2
    rw [hbase, htold, List.append_assoc] at hrest
    rw [sweepSlots_cons, visits, List.flatMap_cons, ← hrest]
    split <;> rfl

/-! ### What a sweep keeps -/

theorem sweepSlots_course {P : α → Prop} {R : σ → σ → Prop} (hrefl : ∀ state, R state state)
    (htrans : ∀ {a b c : σ}, R a b → R b c → R a c) (visit : σ → α → Bool × α × σ)
    (hvisit : ∀ state item, P item →
      P (visit state item).2.1 ∧ R state (visit state item).2.2)
    {slots : List (Slot α)} (h : ∀ slot ∈ slots, P slot.item) (state : σ) :
    (∀ slot ∈ (sweepSlots visit slots state).1, P slot.item) ∧
      R state (sweepSlots visit slots state).2.2 := by
  induction slots generalizing state with
  | nil => exact ⟨h, hrefl state⟩
  | cons slot rest ih =>
    obtain ⟨hitem, hfirst⟩ := hvisit state slot.item (h slot List.mem_cons_self)
    obtain ⟨hkept, hlater⟩ :=
      ih (fun slot hslot => h slot (List.mem_cons_of_mem _ hslot)) (visit state slot.item).2.2
    simp only [sweepSlots]
    split
    · exact ⟨List.forall_mem_cons.mpr ⟨hitem, hkept⟩, htrans hfirst hlater⟩
    · exact ⟨hkept, htrans hfirst hlater⟩

/-- **A sweep keeps** what each of its visits keeps, of the items and of the state. -/
theorem sweep_course {P : α → Prop} {R : σ → σ → Prop} (hrefl : ∀ state, R state state)
    (htrans : ∀ {a b c : σ}, R a b → R b c → R a c) (visit : σ → α → Bool × α × σ)
    (hvisit : ∀ state item, P item →
      P (visit state item).2.1 ∧ R state (visit state item).2.2)
    (p : Pool α) (h : ∀ slot ∈ p.active, P slot.item) (state : σ) :
    (∀ slot ∈ (p.sweep visit state).1.active, P slot.item) ∧ R state (p.sweep visit state).2 := by
  rw [sweep_eq]
  exact sweepSlots_course hrefl htrans visit hvisit h state

/-! ### Visits that may fail -/

/-- A sweep whose visits may fail. It fails if one of them does. -/
def trySweep (p : Pool α) (visit : σ → α → Option (Bool × α × σ)) (state : σ) :
    Option (Pool α × σ) :=
  let swept := p.sweep
    (fun state item =>
      match state.bind (visit · item) with
      | some (keep, item, state) => (keep, item, some state)
      | none => (true, item, none))
    (some state)
  swept.2.map fun state => (swept.1, state)

/-- **A sweep does not fail** if no visit fails that it comes to. -/
theorem trySweep_eq {I : σ → Prop} {P : α → Prop} {visit : σ → α → Bool × α × σ}
    {visit? : σ → α → Option (Bool × α × σ)}
    (hvisit : ∀ state item, I state → P item →
      visit? state item = some (visit state item) ∧ I (visit state item).2.2)
    (p : Pool α) (h : ∀ slot ∈ p.active, P slot.item) {state : σ} (hI : I state) :
    p.trySweep visit? state = some (p.sweep visit state) := by
  have hslots : ∀ (slots : List (Slot α)) (state : σ), I state → (∀ slot ∈ slots, P slot.item) →
      sweepSlots
          (fun state item =>
            match state.bind (visit? · item) with
            | some (keep, item, state) => (keep, item, some state)
            | none => (true, item, none))
          slots (some state) =
        ((sweepSlots visit slots state).1, (sweepSlots visit slots state).2.1,
          some (sweepSlots visit slots state).2.2) := by
    intro slots
    induction slots with
    | nil => exact fun _ _ _ => rfl
    | cons slot rest ih =>
      intro state hI h
      obtain ⟨hsome, hnext⟩ := hvisit state slot.item hI (h slot List.mem_cons_self)
      have hrest := ih (visit state slot.item).2.2 hnext
        fun slot hslot => h slot (List.mem_cons_of_mem _ hslot)
      simp only [sweepSlots, Option.bind_some, hsome, hrest]
      split <;> rfl
  rw [trySweep, sweep_eq, sweep_eq, hslots p.active state hI h]
  rfl

/-! ### Two sweeps side by side -/

section Alike

variable {R : σ → σ' → Prop} {visit : σ → α → Bool × α × σ} {visit' : σ' → α → Bool × α × σ'}
  {state : σ} {state' : σ'}

theorem sweepSlots_alike
    (hvisit : ∀ {state : σ} {state' : σ'}, R state state' → ∀ item,
      ∃ after', visit' state' item = ((visit state item).1, (visit state item).2.1, after') ∧
        R (visit state item).2.2 after')
    (h : R state state') (slots : List (Slot α)) :
    ∃ after', sweepSlots visit' slots state' =
        ((sweepSlots visit slots state).1, (sweepSlots visit slots state).2.1, after') ∧
      R (sweepSlots visit slots state).2.2 after' := by
  induction slots generalizing state state' with
  | nil => exact ⟨state', rfl, h⟩
  | cons slot rest ih =>
    obtain ⟨after', hslot, hafter⟩ := hvisit h slot.item
    obtain ⟨last', hrest, hlast⟩ := ih hafter
    simp only [sweepSlots, hslot, hrest]
    split
    · exact ⟨last', rfl, hlast⟩
    · exact ⟨last', rfl, hlast⟩

/-- **Two sweeps** of one pool from related states. If each visit decides alike and leaves the
same item and related states, so does the sweep. -/
theorem sweep_alike
    (hvisit : ∀ {state : σ} {state' : σ'}, R state state' → ∀ item,
      ∃ after', visit' state' item = ((visit state item).1, (visit state item).2.1, after') ∧
        R (visit state item).2.2 after')
    (h : R state state') (p : Pool α) :
    ∃ after', p.sweep visit' state' = ((p.sweep visit state).1, after') ∧
      R (p.sweep visit state).2 after' := by
  obtain ⟨after', hslots, hafter⟩ := sweepSlots_alike hvisit h p.active
  rw [sweep_eq, sweep_eq, hslots]
  exact ⟨after', rfl, hafter⟩

end Alike

/-! ### Changes to every item -/

theorem sweepSlots_update (change : α → α) (slots : List (Slot α)) :
    sweepSlots (fun (_ : Unit) item => (true, change item, ())) slots () =
      (slots.map fun slot => { slot with item := change slot.item }, [], ()) := by
  induction slots with
  | nil => rfl
  | cons slot rest ih => simp [sweepSlots, ih]

/-- A change to every item leaves both queues in order, although the pass takes every slot to the
back of its queue once. -/
theorem update_eq (p : Pool α) (change : α → α) :
    p.update change =
      ⟨p.active.map fun slot => { slot with item := change slot.item }, p.free⟩ := by
  have hsweep := p.sweep_eq (fun (_ : Unit) item => (true, change item, ())) ()
  rw [sweepSlots_update, List.append_nil] at hsweep
  exact congrArg Prod.fst hsweep

end Pool

end BulletHell
