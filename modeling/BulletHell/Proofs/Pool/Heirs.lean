import BulletHell.Proofs.Pool.Conservation
import BulletHell.Proofs.Pool.Sweep
import Mathlib.Data.List.Nodup

/-!
# Heirs

An object is known by the slot it is in, for as long as that slot stays active. Two relations
between a pool and a later one follow objects on their way. Where nothing is spawned, whatever is
active was active before, in the same slot. Where nothing is released, whatever was active still
is. A slot is in one place only, so both together tell what has become of one object.

## Main definitions

* `Pool.Heirs` — nothing was spawned
* `Pool.Lasts` — nothing was released

## Main results

* `Pool.Heirs.sweep`, `Pool.Lasts.spawn?`, `Pool.Lasts.update` — what is done to a pool
* `Pool.Lasts.meets` — what has become of one object
-/

namespace BulletHell

namespace Pool

variable {α σ : Type} {R : α → α → Prop} {p p' p'' : Pool α}

/-- Whatever is active was active before, in the same slot, and the two are related. -/
structure Heirs (R : α → α → Prop) (p p' : Pool α) : Prop where
  indices : p'.indices.Perm p.indices
  active : ∀ slot ∈ p'.active, ∃ item, ⟨slot.index, item⟩ ∈ p.active ∧ R item slot.item

namespace Heirs

theorem refl (hrefl : ∀ item, R item item) (p : Pool α) : Heirs R p p :=
  ⟨.refl _, fun slot hslot => ⟨slot.item, hslot, hrefl slot.item⟩⟩

theorem trans (h : Heirs R p p') (h' : Heirs R p' p'')
    (htrans : ∀ a b c, R a b → R b c → R a c) : Heirs R p p'' := by
  refine ⟨h'.indices.trans h.indices, fun slot hslot => ?_⟩
  obtain ⟨item', hitem', hlater⟩ := h'.active slot hslot
  obtain ⟨item, hitem, hfirst⟩ := h.active ⟨slot.index, item'⟩ hitem'
  exact ⟨item, hitem, htrans _ _ _ hfirst hlater⟩

/-- **A sweep** spawns nothing. -/
theorem sweep {visit : σ → α → Bool × α × σ} (hvisit : ∀ state item, R item (visit state item).2.1)
    (p : Pool α) (state : σ) : Heirs R p (p.sweep visit state).1 := by
  refine ⟨p.indices_tick _ state, ?_⟩
  rw [sweep_eq]
  generalize p.active = slots
  induction slots generalizing state with
  | nil => exact fun slot hslot => by cases hslot
  | cons first rest ih =>
    intro slot hslot
    have hlater : slot ∈ (sweepSlots visit rest (visit state first.item).2.2).1 →
        ∃ item, ⟨slot.index, item⟩ ∈ first :: rest ∧ R item slot.item := by
      intro hslot
      obtain ⟨item, hitem, hrelated⟩ := ih _ slot hslot
      exact ⟨item, List.mem_cons_of_mem _ hitem, hrelated⟩
    dsimp only at hslot
    rw [sweepSlots_cons] at hslot
    split at hslot
    · rcases List.mem_cons.mp hslot with rfl | hslot
      · exact ⟨first.item, List.mem_cons_self, hvisit state first.item⟩
      · exact hlater hslot
    · exact hlater hslot

end Heirs

/-- Whatever was active still is, in the same slot, and the two are related. -/
structure Lasts (R : α → α → Prop) (p p' : Pool α) : Prop where
  indices : p'.indices.Perm p.indices
  active : ∀ slot ∈ p.active, ∃ item, ⟨slot.index, item⟩ ∈ p'.active ∧ R slot.item item

namespace Lasts

theorem refl (hrefl : ∀ item, R item item) (p : Pool α) : Lasts R p p :=
  ⟨.refl _, fun slot hslot => ⟨slot.item, hslot, hrefl slot.item⟩⟩

theorem trans {R' R'' : α → α → Prop} (h : Lasts R p p') (h' : Lasts R' p' p'')
    (htrans : ∀ a b c, R a b → R' b c → R'' a c) : Lasts R'' p p'' := by
  refine ⟨h'.indices.trans h.indices, fun slot hslot => ?_⟩
  obtain ⟨item', hitem', hfirst⟩ := h.active slot hslot
  obtain ⟨item, hitem, hlater⟩ := h'.active ⟨slot.index, item'⟩ hitem'
  exact ⟨item, hitem, htrans _ _ _ hfirst hlater⟩

/-- **A spawn** releases nothing. -/
theorem spawn? {init : α → α} (hrefl : ∀ item, R item item) (h : p.spawn? init = some p') :
    Lasts R p p' := by
  refine ⟨indices_spawn? h, fun slot hslot => ⟨slot.item, ?_, hrefl slot.item⟩⟩
  obtain ⟨active, free⟩ := p
  cases free with
  | nil => cases h
  | cons fresh rest =>
    obtain rfl := Option.some.inj h
    exact List.mem_append_left _ hslot

/-- **A change to every item** releases nothing. -/
theorem update {change : α → α} (hchange : ∀ item, R item (change item)) (p : Pool α) :
    Lasts R p (p.update change) := by
  refine ⟨p.indices_tick _ (), fun slot hslot => ⟨change slot.item, ?_, hchange slot.item⟩⟩
  rw [update_eq]
  exact List.mem_map_of_mem hslot

end Lasts

/-- **One object to a slot.** -/
theorem item_eq_of_nodup (h : p.indices.Nodup) {i : Nat} {item item' : α}
    (hitem : ⟨i, item⟩ ∈ p.active) (hitem' : ⟨i, item'⟩ ∈ p.active) : item = item' := by
  have hsame : (⟨i, item⟩ : Slot α) = ⟨i, item'⟩ :=
    List.inj_on_of_nodup_map h (List.mem_append_left _ hitem) (List.mem_append_left _ hitem') rfl
  exact congrArg Slot.item hsame

/-- **One object on its way**: first nothing is released, and then nothing is spawned. -/
theorem Lasts.meets {R' : α → α → Prop} (h : Lasts R p p') (h' : Heirs R' p' p'')
    (hnodup : p.indices.Nodup) {i : Nat} {item item'' : α} (hitem : ⟨i, item⟩ ∈ p.active)
    (hitem'' : ⟨i, item''⟩ ∈ p''.active) : ∃ item', R item item' ∧ R' item' item'' := by
  obtain ⟨item', hitem', hfirst⟩ := h.active ⟨i, item⟩ hitem
  obtain ⟨other, hother, hlater⟩ := h'.active ⟨i, item''⟩ hitem''
  obtain rfl := item_eq_of_nodup (h.indices.nodup_iff.mpr hnodup) hitem' hother
  exact ⟨item', hfirst, hlater⟩

end Pool

end BulletHell
