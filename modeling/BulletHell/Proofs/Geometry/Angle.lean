import BulletHell.Geometry.Angle
import Mathlib.Data.Int.ModEq

/-!
# Folding is even-handed

`wrapAngle` is not reduction modulo 360. The results cover both ends of `[-180, 180]`, and the two
ends are told apart: 180 stays, and so does -180. But turns to the left and turns to the right are
folded alike, so an angle to the other side folds to the same angle on the other side. Saturation
is not as even-handed, since there is one more angle below zero than above; but up to the greatest
angle, on either side, it changes nothing.

What folding does change is the direction: it may reverse it, so that angles are kept modulo half a
turn only. Below a full turn it reverses nothing.

## Main results

* `wrapAngle_neg`, `natAbs_wrapAngle_le`
* `wrapAngle_modEq`, `wrapAngle_modEq_of_lt` — what is left of the direction
* `saturate_eq_self`
-/

namespace BulletHell

variable {angle : Int}

theorem wrapAngle_of_natAbs_le (h : angle.natAbs ≤ 180) : wrapAngle angle = angle := by
  rw [wrapAngle, if_neg (by omega), if_neg (by omega)]

theorem wrapAngle_of_gt (h : 180 < angle) : wrapAngle angle = angle % 180 - 180 := by
  rw [wrapAngle, if_neg (by omega), if_pos h]

theorem wrapAngle_of_lt (h : angle < -180) : wrapAngle angle = 180 - (-angle) % 180 :=
  if_pos h

/-- Folding turns both ways alike. -/
theorem wrapAngle_neg (angle : Int) : wrapAngle (-angle) = -wrapAngle angle := by
  rcases Nat.lt_or_ge 180 angle.natAbs with hlarge | hsmall
  · rcases Int.lt_or_le angle 0 with hneg | hpos
    · rw [wrapAngle_of_lt (by omega : angle < -180), wrapAngle_of_gt (by omega : 180 < -angle)]
      omega
    · rw [wrapAngle_of_gt (by omega : 180 < angle), wrapAngle_of_lt (by omega : -angle < -180),
        Int.neg_neg]
      omega
  · rw [wrapAngle_of_natAbs_le hsmall, wrapAngle_of_natAbs_le (by omega)]

/-- Folded angles do not exceed half a turn. -/
theorem natAbs_wrapAngle_le (angle : Int) : (wrapAngle angle).natAbs ≤ 180 := by
  rw [wrapAngle]
  split
  · omega
  · split <;> omega

/-- Folding keeps the line of an angle. -/
theorem wrapAngle_modEq (angle : Int) : wrapAngle angle ≡ angle [ZMOD 180] := by
  rw [wrapAngle, Int.ModEq]
  split
  · omega
  · split <;> omega

/-- Below a full turn it keeps the direction. -/
theorem wrapAngle_modEq_of_lt (h : angle.natAbs < 360) : wrapAngle angle ≡ angle [ZMOD 360] := by
  rw [wrapAngle, Int.ModEq]
  split
  · omega
  · split <;> omega

theorem saturate_eq_self (h : angle.natAbs ≤ 0x7fffffff) : saturate angle = angle := by
  rw [saturate, maxAngle, minAngle, Int.min_eq_right (by omega), Int.max_eq_right (by omega)]

end BulletHell
