import Mathlib.Data.List.Forall2
import BulletHell.Proofs.Pool.Sweep

/-!
# Twin pools

What can be told of a pool from outside is which items are active, in which order, and whether
there is room for more. The numbers of the slots cannot be told, nor what was left in the slots
that are free. Pools that differ in no more than that are twins, and they stay twins whatever is
done to both.

A slot that is taken again still holds what it was last used for, and what becomes of it may depend
on that. So it matters what a slot can hold. Both are said by one relation on items: it tells which
items pass for the same, and the items it relates to themselves are the ones that a slot can hold.
It need not be reflexive, but whatever it relates at all it relates to itself.

## Main definitions

* `Pool.Kinship` — such a relation
* `Pool.Twin` — items that pass for the same, in the same order, and as much room

## Main results

* `Pool.Twin.spawn?`, `Pool.Twin.sweep`, `Pool.Twin.retain`, `Pool.Twin.update` — what is done to
  both
* `Pool.Twin.clear` — pools of one size that are emptied
-/

namespace BulletHell

namespace Pool

variable {α σ σ' : Type} {E : α → α → Prop} {capacity : Nat} {p p' : Pool α}

/-- What is related to anything is related to itself. -/
structure Kinship (E : α → α → Prop) : Prop where
  left : ∀ {a b : α}, E a b → E a a
  right : ∀ {a b : α}, E a b → E b b

theorem Kinship.eq : Kinship (Eq : α → α → Prop) :=
  ⟨fun _ => rfl, fun _ => rfl⟩

/-- Pools whose items pass for the same, in the same order, and which have as much room. What is
left in their free slots is of the right kind. -/
structure Twin (E : α → α → Prop) (capacity : Nat) (p p' : Pool α) : Prop where
  items : List.Forall₂ E p.items p'.items
  free : p'.free.length = p.free.length
  capacity : p.active.length + p.free.length = capacity
  kin : ∀ slot ∈ p.free, E slot.item slot.item
  kin' : ∀ slot ∈ p'.free, E slot.item slot.item

/-- Items that are related in order are of the right kind. -/
theorem Kinship.forall₂_left (hE : Kinship E) {items items' : List α}
    (h : List.Forall₂ E items items') : List.Forall₂ E items items := by
  induction h with
  | nil => exact .nil
  | cons hitem _ ih => exact .cons (hE.left hitem) ih

theorem Kinship.forall₂_right (hE : Kinship E) {items items' : List α}
    (h : List.Forall₂ E items items') : List.Forall₂ E items' items' := by
  induction h with
  | nil => exact .nil
  | cons hitem _ ih => exact .cons (hE.right hitem) ih

namespace Twin

theorem length_active (h : Twin E capacity p p') : p'.active.length = p.active.length := by
  have hlength := h.items.length_eq
  rw [Pool.items, Pool.items, List.length_map, List.length_map] at hlength
  exact hlength.symm

/-- The first of two twins is its own twin. -/
theorem left (hE : Kinship E) (h : Twin E capacity p p') : Twin E capacity p p :=
  ⟨hE.forall₂_left h.items, rfl, h.capacity, h.kin, h.kin⟩

/-- And so is the second. -/
theorem right (hE : Kinship E) (h : Twin E capacity p p') : Twin E capacity p' p' :=
  ⟨hE.forall₂_right h.items, rfl, by rw [h.length_active, h.free]; exact h.capacity, h.kin',
    h.kin'⟩

theorem new {make : Nat → α} (hmake : ∀ i, E (make i) (make i)) (capacity : Nat) :
    Twin E capacity (Pool.new capacity make) (Pool.new capacity make) := by
  have hfree : ∀ slot ∈ (Pool.new capacity make).free, E slot.item slot.item := by
    intro slot hslot
    obtain ⟨i, -, rfl⟩ := List.mem_map.mp hslot
    exact hmake i
  refine ⟨.nil, rfl, ?_, hfree, hfree⟩
  simp [Pool.new]

/-- **A spawn** finds room in both or in none. -/
theorem spawn? (h : Twin E capacity p p') (init init' : α → α)
    (hinit : ∀ a b, E a a → E b b → E (init a) (init' b)) :
    p.spawn? init = none ∧ p'.spawn? init' = none ∨
      ∃ q q', p.spawn? init = some q ∧ p'.spawn? init' = some q' ∧ Twin E capacity q q' := by
  have hlength := h.free
  cases hfree : p.free with
  | nil =>
    have hfree' : p'.free = [] := by
      rwa [hfree, List.length_nil, List.length_eq_zero_iff] at hlength
    exact .inl ⟨by rw [Pool.spawn?, hfree], by rw [Pool.spawn?, hfree']⟩
  | cons slot rest =>
    obtain ⟨slot', rest', hfree'⟩ : ∃ slot' rest', p'.free = slot' :: rest' := by
      rw [hfree] at hlength
      exact List.exists_cons_of_length_eq_add_one hlength
    have hslot : E slot.item slot.item := h.kin slot (by simp [hfree])
    have hslot' : E slot'.item slot'.item := h.kin' slot' (by simp [hfree'])
    have hsize := h.capacity
    rw [hfree, hfree', List.length_cons, List.length_cons] at hlength
    rw [hfree, List.length_cons] at hsize
    refine .inr ⟨_, _, by rw [Pool.spawn?, hfree], by rw [Pool.spawn?, hfree'], ?_, ?_, ?_,
      fun s hs => h.kin s (by simp [hfree, hs]), fun s hs => h.kin' s (by simp [hfree', hs])⟩
    · rw [Pool.items, Pool.items, List.map_append, List.map_append]
      exact List.rel_append h.items (.cons (hinit _ _ hslot hslot') .nil)
    · exact Nat.succ.inj hlength
    · simp only [List.length_append, List.length_singleton]
      omega

end Twin

/-! ### Sweeps -/

/-- Two runs of visits over items that pass for the same, from related states. -/
theorem sweepSlots_twin {R : σ → σ' → Prop} {visit : σ → α → Bool × α × σ}
    {visit' : σ' → α → Bool × α × σ'}
    (hvisit : ∀ {state : σ} {state' : σ'} {a a' : α}, R state state' → E a a' →
      (visit' state' a').1 = (visit state a).1 ∧ E (visit state a).2.1 (visit' state' a').2.1 ∧
        R (visit state a).2.2 (visit' state' a').2.2)
    {slots slots' : List (Slot α)}
    (hitems : List.Forall₂ E (slots.map (·.item)) (slots'.map (·.item))) {state : σ} {state' : σ'}
    (h : R state state') :
    List.Forall₂ E ((sweepSlots visit slots state).1.map (·.item))
        ((sweepSlots visit' slots' state').1.map (·.item)) ∧
      List.Forall₂ E ((sweepSlots visit slots state).2.1.map (·.item))
        ((sweepSlots visit' slots' state').2.1.map (·.item)) ∧
      R (sweepSlots visit slots state).2.2 (sweepSlots visit' slots' state').2.2 := by
  induction slots generalizing slots' state state' with
  | nil =>
    obtain rfl : slots' = [] := List.map_eq_nil_iff.mp (List.forall₂_nil_left_iff.mp hitems)
    exact ⟨.nil, .nil, h⟩
  | cons slot rest ih =>
    cases slots' with
    | nil => cases hitems
    | cons slot' rest' =>
      obtain ⟨hitem, hrest⟩ := List.forall₂_cons.mp hitems
      obtain ⟨hkeep, hafter, hstate⟩ := hvisit h hitem
      obtain ⟨hkept, hreleased, hlast⟩ := ih hrest hstate
      rw [sweepSlots_cons, sweepSlots_cons, hkeep]
      split
      · exact ⟨.cons hafter hkept, hreleased, hlast⟩
      · exact ⟨hkept, .cons hafter hreleased, hlast⟩

namespace Twin

/-- **A sweep** of twins from related states, if each visit decides alike and leaves items that pass
for the same and related states. -/
theorem sweep {R : σ → σ' → Prop} (hE : Kinship E) (visit : σ → α → Bool × α × σ)
    (visit' : σ' → α → Bool × α × σ')
    (hvisit : ∀ {state : σ} {state' : σ'} {a a' : α}, R state state' → E a a' →
      (visit' state' a').1 = (visit state a).1 ∧ E (visit state a).2.1 (visit' state' a').2.1 ∧
        R (visit state a).2.2 (visit' state' a').2.2)
    (h : Twin E capacity p p') {state : σ} {state' : σ'} (hstate : R state state') :
    Twin E capacity (p.sweep visit state).1 (p'.sweep visit' state').1 ∧
      R (p.sweep visit state).2 (p'.sweep visit' state').2 := by
  obtain ⟨hkept, hreleased, hlast⟩ := sweepSlots_twin hvisit h.items hstate
  have hslots := (sweepSlots_indices visit p.active state).length_eq
  rw [List.length_append, List.length_map, List.length_map, List.length_map] at hslots
  have hlength := hreleased.length_eq
  rw [List.length_map, List.length_map] at hlength
  have hsize := h.capacity
  have hkin := List.forall₂_same.mp (hE.forall₂_left hreleased)
  have hkin' := List.forall₂_same.mp (hE.forall₂_right hreleased)
  rw [sweep_eq, sweep_eq]
  refine ⟨⟨hkept, ?_, ?_, ?_, ?_⟩, hlast⟩
  · rw [List.length_append, List.length_append, hlength, h.free]
  · simp only [List.length_append]
    omega
  · exact List.forall_mem_append.mpr
      ⟨h.kin, fun slot hslot => hkin slot.item (List.mem_map_of_mem hslot)⟩
  · exact List.forall_mem_append.mpr
      ⟨h.kin', fun slot hslot => hkin' slot.item (List.mem_map_of_mem hslot)⟩

theorem retain (hE : Kinship E) {visit : α → Bool × α}
    (hvisit : ∀ {a a' : α}, E a a' → (visit a').1 = (visit a).1 ∧ E (visit a).2 (visit a').2)
    (h : Twin E capacity p p') : Twin E capacity (p.retain visit) (p'.retain visit) := by
  exact (h.sweep (R := fun _ _ => True) hE (fun () item => ((visit item).1, (visit item).2, ()))
    (fun () item => ((visit item).1, (visit item).2, ()))
    (fun _ hitem => ⟨(hvisit hitem).1, (hvisit hitem).2, trivial⟩) trivial).1

theorem update (hE : Kinship E) (change : α → α)
    (hchange : ∀ {a a' : α}, E a a' → E (change a) (change a')) (h : Twin E capacity p p') :
    Twin E capacity (p.update change) (p'.update change) :=
  h.retain hE fun hitem => ⟨rfl, hchange hitem⟩

end Twin

/-! ### Empty pools -/

theorem clear_eq (p : Pool α) : p.clear = ⟨[], p.free ++ p.active⟩ := by
  have hdismiss : ∀ slots : List (Slot α),
      dismiss (fun (state : Unit) item => (item, state)) slots () = (slots, ()) := by
    intro slots
    induction slots with
    | nil => rfl
    | cons slot rest ih => simp only [dismiss, ih]
  simp only [clear, clearWith, hdismiss]

/-- **Pools of one size** and one kind are twins once they are emptied, whatever they held. -/
theorem Twin.clear (h : Twin E capacity p p) (h' : Twin E capacity p' p') :
    Twin E capacity p.clear p'.clear := by
  have hkin : ∀ {q : Pool α}, Twin E capacity q q →
      ∀ slot ∈ q.free ++ q.active, E slot.item slot.item := fun hq =>
    List.forall_mem_append.mpr ⟨hq.kin, fun slot hslot =>
      List.forall₂_same.mp hq.items slot.item (List.mem_map_of_mem hslot)⟩
  have hsize := h.capacity
  have hsize' := h'.capacity
  rw [clear_eq, clear_eq]
  refine ⟨.nil, ?_, ?_, hkin h, hkin h'⟩
  · rw [List.length_append, List.length_append]
    omega
  · rw [List.length_append, List.length_nil]
    omega

end Pool

end BulletHell
