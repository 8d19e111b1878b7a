/-!
# Binary floating-point formats

Floating-point numbers seen as exact numbers: a bit pattern is taken apart into a sign, an
integer mantissa and a power of two, and an exact quotient is put back into the nearest bit
pattern. Everything in between is integer arithmetic, so nothing is rounded twice.

## Main definitions

* `BinaryFormat.classify` — the exact value of a bit pattern.
* `BinaryFormat.nearest` — the bit pattern nearest to a quotient, ties to the even mantissa.
* `remainder` — the remainder of a division that truncates toward zero; it is exact.
* `truncate` — the integer part, clamped to a range.
-/

namespace BulletHell

/-- A binary format is given by the widths of its fraction and exponent fields. -/
structure BinaryFormat where
  fractionBits : Nat
  exponentBits : Nat

/-- What a bit pattern stands for. A finite value is `mantissa * 2 ^ scale`, with a sign. -/
inductive BinaryValue where
  | notANumber
  | infinite (negative : Bool)
  | finite (negative : Bool) (mantissa : Nat) (scale : Int)
deriving DecidableEq, Repr

/-- A power of two. -/
def pow2 (n : Nat) : Nat :=
  Nat.pow 2 n

/-- The quotient rounded to an integer; a half goes to the even neighbour. -/
def roundHalfEven (num den : Nat) : Nat :=
  let q := num / den
  let r := num % den
  if 2 * r < den || (2 * r == den && q % 2 == 0) then q else q + 1

namespace BinaryFormat

/-- Thirty-two bits. -/
def single : BinaryFormat := ⟨23, 8⟩

/-- Sixty-four bits. -/
def double : BinaryFormat := ⟨52, 11⟩

/-- The power of two that one unit of the smallest numbers stands for. -/
def minScale (f : BinaryFormat) : Int :=
  2 - (pow2 (f.exponentBits - 1) : Int) - f.fractionBits

/-- The pattern of positive infinity. Smaller patterns without a sign are the finite
magnitudes, in order. -/
def infinity (f : BinaryFormat) : Nat :=
  (pow2 f.exponentBits - 1) * pow2 f.fractionBits

/-- The weight of the sign bit. -/
def signBit (f : BinaryFormat) : Nat :=
  pow2 (f.fractionBits + f.exponentBits)

/-- The exact value of a bit pattern. -/
def classify (f : BinaryFormat) (bits : Nat) : BinaryValue :=
  let negative := f.signBit ≤ bits
  let magnitude := bits % f.signBit
  if f.infinity < magnitude then .notANumber
  else if magnitude = f.infinity then .infinite negative
  else
    let fraction := magnitude % pow2 f.fractionBits
    match magnitude / pow2 f.fractionBits with
    | 0 => .finite negative fraction f.minScale
    | e + 1 => .finite negative (pow2 f.fractionBits + fraction) (f.minScale + e)

/-- The pattern nearest to `num / den`. Too large a quotient gives infinity.

The scale is chosen so that the mantissa has one bit more than the fraction field, but never
below `minScale`. Adding the mantissa to the shifted scale lets a mantissa that rounds up to
the next power of two carry into the exponent field by itself. -/
def nearest (f : BinaryFormat) (num den : Nat) : Nat :=
  if num = 0 then 0
  else
    let guess : Int := (num.log2 : Int) - den.log2
    let below := if 0 ≤ guess then num < den * pow2 guess.toNat else num * pow2 (-guess).toNat < den
    let top := if below then guess - 1 else guess
    let scale := max (top - f.fractionBits) f.minScale
    let mantissa :=
      if 0 ≤ scale then roundHalfEven num (den * pow2 scale.toNat)
      else roundHalfEven (num * pow2 (-scale).toNat) den
    min ((scale - f.minScale).toNat * pow2 f.fractionBits + mantissa) f.infinity

/-- The pattern of `mantissa * 2 ^ scale`, with a sign. -/
def encode (f : BinaryFormat) (negative : Bool) (mantissa : Nat) (scale : Int) : Nat :=
  let magnitude :=
    if 0 ≤ scale then f.nearest (mantissa * pow2 scale.toNat) 1
    else f.nearest mantissa (pow2 (-scale).toNat)
  if negative then f.signBit + magnitude else magnitude

end BinaryFormat

/-- The exact value of a single. -/
def singleValue (x : Float32) : BinaryValue :=
  BinaryFormat.single.classify x.toBits.toNat

/-- The exact value of a double. -/
def doubleValue (x : Float) : BinaryValue :=
  BinaryFormat.double.classify x.toBits.toNat

/-- The single with a given pattern. -/
def singleOfPattern (bits : Nat) : Float32 :=
  Float32.ofBits (UInt32.ofNat bits)

/-- The double with a given pattern. -/
def doubleOfPattern (bits : Nat) : Float :=
  Float.ofBits (UInt64.ofNat bits)

/-- The remainder of `x / y` with the quotient truncated toward zero. It takes the sign of
`x`, also when it is zero, and is computed without rounding. -/
def remainder (x y : Float32) : Float32 :=
  match singleValue x, singleValue y with
  | .finite negative m p, .finite _ n q =>
    if n = 0 then 0 / 0
    else
      let scale := min p q
      let r := m * pow2 (p - scale).toNat % (n * pow2 (q - scale).toNat)
      singleOfPattern (BinaryFormat.single.encode negative r scale)
  | .finite .., .infinite _ => x
  | _, _ => 0 / 0

/-- The integer part of `x`, clamped to `lo..hi`; what is not a number counts as zero. -/
def truncate (lo hi : Int) (x : Float32) : Int :=
  match singleValue x with
  | .notANumber => 0
  | .infinite negative => if negative then lo else hi
  | .finite negative m scale =>
    let whole := if 0 ≤ scale then m * pow2 scale.toNat else m / pow2 (-scale).toNat
    max lo (min hi (if negative then -(whole : Int) else whole))

end BulletHell
