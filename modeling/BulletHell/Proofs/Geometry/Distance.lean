import BulletHell.Geometry.Vector
import Mathlib

/-!
# Squared distances

A squared distance is a sum of two squares, and it is never less than zero: rounding keeps the sign,
and so do infinities. Nothing is assumed of the coordinates. That matters where a coordinate comes
from a sine or a cosine, of whose values nothing is known.

## Main definitions

* `signOf` — the sign of an unpacked number, which is positive where there is none

## Main results

* `signOf_mul_self`, `signOf_add` — squares and sums
* `Vec2.not_distanceSquared_lt_zero`
-/

namespace BulletHell

open Float.Model (Format UnpackedFloat)
open Float.Model.UnpackedFloat hiding pack unpack

/-- The sign of a number. What is not a number counts as positive. -/
def signOf : UnpackedFloat → Sign
  | .notANumber => .positive
  | .infinity s | .zero s | .finite s _ _ _ => s

/-! ### Packing -/

/-- Packing keeps the sign. -/
theorem unpackSign_pack (spec : Format) (u : UnpackedFloat) :
    unpackSign (u.pack spec) = (signOf u).toBitVec := by
  cases u with
  | finite s m e hm =>
    rw [UnpackedFloat.pack]
    split
    · exact unpackSign_packComponents _ _ _
    · split <;> exact unpackSign_packComponents _ _ _
  | _ => exact unpackSign_packComponents _ _ _

/-- Unpacking loses the sign of what is not a number, so this is not true of a negative one. -/
theorem signOf_unpack {spec : Format} {b : BitVec spec.numBits}
    (h : Sign.ofBitVec (unpackSign b) = .positive) : signOf (.unpack spec b) = .positive := by
  rw [UnpackedFloat.unpack, h]
  split
  · split <;> rfl
  · split
    · split <;> rfl
    · rfl

theorem signOf_unpack_pack {spec : Format} {u : UnpackedFloat} (h : signOf u = .positive) :
    signOf (.unpack spec (u.pack spec)) = .positive :=
  signOf_unpack (by rw [unpackSign_pack, h, Sign.ofBitVec_toBitVec])

/-! ### Rounding -/

theorem signOf_roundWithAccuracy (spec : Format) (s : Sign) (m : Nat) (e : Int) (a : Accuracy) :
    signOf (roundWithAccuracy spec s m e a) = s := by
  rw [roundWithAccuracy]
  dsimp only
  split <;> rfl

theorem signOf_normalize (spec : Format) {m : Int} (h : 0 ≤ m) (e : Int) :
    signOf (.normalize spec m e .positive) = .positive := by
  rw [UnpackedFloat.normalize]
  split
  · next hlt => exact absurd (Int.compare_eq_lt.mp hlt) (Int.not_lt.mpr h)
  · rfl
  · exact signOf_roundWithAccuracy _ _ _ _ _

/-! ### Squares and sums -/

theorem signOf_mul_self (spec : Format) (u : UnpackedFloat) :
    signOf (mul spec u u) = .positive := by
  have hself : ∀ s : Sign, s * s = .positive := fun s => by cases s <;> rfl
  cases u with
  | notANumber => rfl
  | infinity s => exact hself s
  | zero s => exact hself s
  | finite s m e hm => exact (signOf_roundWithAccuracy _ _ _ _ _).trans (hself s)

theorem signOf_add (spec : Format) {u v : UnpackedFloat} (hu : signOf u = .positive)
    (hv : signOf v = .positive) : signOf (add spec u v) = .positive := by
  cases u with
  | notANumber => rfl
  | infinity s =>
    subst hu
    cases v with
    | infinity s' =>
      subst hv
      rfl
    | _ => rfl
  | zero s =>
    subst hu
    cases v with
    | zero s' =>
      subst hv
      rfl
    | _ => exact hv
  | finite s m e hm =>
    subst hu
    cases v with
    | finite s' m' e' hm' =>
      subst hv
      exact signOf_normalize spec (Int.natCast_nonneg _) _
    | infinity s' => exact hv
    | _ => rfl

/-! ### Distances -/

/-- What has a positive sign is not less than zero. -/
theorem not_lt_zero_of_signOf {x : Float32} (h : signOf x.toModel.unpack = .positive) :
    ¬ x < 0 := by
  have hcompare : x.toModel.unpack.lt (.zero .positive) = false := by
    cases hx : x.toModel.unpack with
    | notANumber => rfl
    | infinity s =>
      rw [hx] at h
      subst h
      rfl
    | zero s => rfl
    | finite s m e hm =>
      rw [hx] at h
      subst h
      rfl
  exact fun hlt => Bool.false_ne_true (hcompare.symm.trans (of_decide_eq_true hlt))

namespace Vec2

/-- **A squared distance is not less than zero**, wherever the points are. -/
theorem not_distanceSquared_lt_zero (a b : Vec2) : ¬ a.distanceSquared b < 0 := by
  apply not_lt_zero_of_signOf
  have hsquare : ∀ x : Float32, signOf (x * x).toModel.unpack = .positive := fun x =>
    signOf_unpack_pack (signOf_mul_self _ _)
  exact signOf_unpack_pack (signOf_add _ (hsquare _) (hsquare _))

end Vec2

end BulletHell
