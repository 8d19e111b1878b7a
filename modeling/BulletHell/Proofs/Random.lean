import BulletHell.Random
import Mathlib.Tactic.Ring

/-!
# Draws from a range

A draw from a range is a multiplication. The draw is taken for a fraction of a word, and what the
product has in its high word is the number that is drawn. A second draw is looked at only where it
could make a difference: then it is multiplied as well, and its high word may carry into the first
product, so that the number goes up by one.

Nothing in this keeps the last number of the range from going up. What does is that both draws
together are one fraction of two words, and that the number, with or without the carry, is what this
fraction of the range is rounded down to. The fraction is below one; so no number is drawn that is
not in the range, whatever the words are. A draw that is not looked at could not have carried.

## Main definitions

* `Pcg32.fraction` — the next two draws as one fraction

## Main results

* `Pcg32.mul_fraction_div` — the two products, and the carry between them
* `Pcg32.uniform_eq` — the number that is drawn
* `Pcg32.natAbs_uniform_le`
-/

namespace BulletHell

namespace Pcg32

/-- The next two draws as a fraction, in units of one over the square of `wordCount`. -/
def fraction (g : Pcg32) : Nat :=
  g.next.1.toNat * wordCount + g.next.2.next.1.toNat

theorem fraction_lt (g : Pcg32) : g.fraction < wordCount * wordCount := by
  have hdraw : g.next.1.toNat < wordCount := g.next.1.toNat_lt
  have hextra : g.next.2.next.1.toNat < wordCount := g.next.2.next.1.toNat_lt
  calc g.fraction
      < g.next.1.toNat * wordCount + wordCount := Nat.add_lt_add_left hextra _
    _ = (g.next.1.toNat + 1) * wordCount := (Nat.succ_mul _ _).symm
    _ ≤ wordCount * wordCount := Nat.mul_le_mul_right _ hdraw

/-! ### The two products -/

section Products

variable {words range draw extra : Nat}

/-- The second product is worked in below the first one. -/
theorem mul_fraction_div (range draw extra : Nat) (h : 0 < words) :
    range * (draw * words + extra) / (words * words) =
      draw * range / words + (draw * range % words + extra * range / words) / words := by
  have hproduct : range * (draw * words + extra) = extra * range + draw * range * words := by ring
  calc range * (draw * words + extra) / (words * words)
      = (extra * range / words + draw * range) / words := by
        rw [hproduct, ← Nat.div_div_eq_div_mul, Nat.add_mul_div_right _ _ h]
    _ = (draw * range % words + extra * range / words + draw * range / words * words) / words := by
        have hsplit := Nat.mod_add_div' (draw * range) words
        exact congrArg (· / words) (by omega)
    _ = draw * range / words + (draw * range % words + extra * range / words) / words := by
        rw [Nat.add_mul_div_right _ _ h, Nat.add_comm]

/-- The high word of the second product is below the range. -/
theorem high_lt (hrange : 0 < range) (hextra : extra < words) : extra * range / words < range :=
  Nat.div_lt_of_lt_mul (Nat.mul_lt_mul_of_pos_right hextra hrange)

/-- So it carries at most once. -/
theorem carry_eq (hrange : 0 < range) (hle : range ≤ words) (hextra : extra < words) (low : Nat)
    (hlow : low < words) :
    (low + extra * range / words) / words =
      if words ≤ low + extra * range / words then 1 else 0 := by
  have hhigh := high_lt hrange hextra
  split
  · next hover => exact Nat.div_eq_of_lt_le (by omega) (by omega)
  · next hunder => exact Nat.div_eq_of_lt (Nat.not_le.mp hunder)

/-- And not at all if the low word of the first product leaves room for the range. -/
theorem carry_eq_zero (hrange : 0 < range) (hle : range ≤ words) (hextra : extra < words)
    {low : Nat} (hlow : low ≤ words - range) : (low + extra * range / words) / words = 0 := by
  have hhigh := high_lt hrange hextra
  exact Nat.div_eq_of_lt (by omega)

end Products

/-! ### The number that is drawn -/

/-- **The number that is drawn**, counted from the lower end of the range. -/
theorem uniform_eq (g : Pcg32) {s : Nat} (h : 2 * s + 1 ≤ wordCount) :
    (g.uniform s).1 =
      -(s : Int) + ((2 * s + 1) * g.fraction / (wordCount * wordCount) : Nat) := by
  have hrange : 0 < 2 * s + 1 := Nat.succ_pos _
  have hwords : 0 < wordCount := Nat.lt_of_lt_of_le hrange h
  have hextra : g.next.2.next.1.toNat < wordCount := g.next.2.next.1.toNat_lt
  rw [fraction, mul_fraction_div _ _ _ hwords, uniform]
  dsimp only
  split
  · rw [carry_eq hrange h hextra _ (Nat.mod_lt _ hwords)]
  · next hroom =>
    rw [carry_eq_zero hrange h hextra (Nat.not_lt.mp hroom)]
    rfl

/-- **No number is drawn that is not in the range.** -/
theorem natAbs_uniform_le (g : Pcg32) {s : Nat} (h : 2 * s + 1 ≤ wordCount) :
    (g.uniform s).1.natAbs ≤ s := by
  have hbelow : (2 * s + 1) * g.fraction / (wordCount * wordCount) < 2 * s + 1 := by
    refine Nat.div_lt_of_lt_mul ?_
    rw [Nat.mul_comm (wordCount * wordCount)]
    exact Nat.mul_lt_mul_of_pos_left g.fraction_lt (Nat.succ_pos _)
  rw [g.uniform_eq h]
  generalize (2 * s + 1) * g.fraction / (wordCount * wordCount) = number at hbelow
  omega

end Pcg32

end BulletHell
