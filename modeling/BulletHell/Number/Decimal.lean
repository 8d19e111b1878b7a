import BulletHell.Number.Binary

/-!
# Decimal numerals

Reading a decimal numeral as the nearest binary number, and writing a binary number with the
fewest decimal digits that read back as the same number.

## Main definitions

* `Decimal.nearest` — the pattern nearest to a decimal, rounded once.
* `shortest` — the shortest decimal that reads back, and of those the nearest.
* `positional` — digits and a point, never an exponent.
* `scientific` — positional in the middle range and with an exponent outside it.
* `readDouble?` — the numerals that a person may type for a double.
-/

namespace BulletHell

/-- The number `digits * 10 ^ exponent`, with a sign. -/
structure Decimal where
  negative : Bool
  digits : Nat
  exponent : Int
deriving DecidableEq, Repr

/-- A power of ten. -/
def pow10 (n : Nat) : Nat :=
  Nat.pow 10 n

/-- The decimal digits of a natural number, most significant first. -/
def digitChars (n : Nat) : List Char :=
  Nat.toDigits 10 n

namespace Decimal

/-- The pattern nearest to a decimal.

Magnitudes beyond `10 ^ 400` or below `10 ^ (-400)` are infinite or zero in every format used
here, and are sorted out first so that no power of ten is larger than its numeral deserves. -/
def nearest (f : BinaryFormat) (d : Decimal) : Nat :=
  let order := d.exponent + (digitChars d.digits).length
  let magnitude :=
    if d.digits = 0 || order < -400 then 0
    else if 400 < order then f.infinity
    else if 0 ≤ d.exponent then f.nearest (d.digits * pow10 d.exponent.toNat) 1
    else f.nearest d.digits (pow10 (-d.exponent).toNat)
  if d.negative then f.signBit + magnitude else magnitude

/-- The double nearest to a decimal. -/
def toDouble (d : Decimal) : Float :=
  doubleOfPattern (d.nearest .double)

end Decimal

/-- The single nearest to an integer. -/
def singleOfInt (n : Int) : Float32 :=
  singleOfPattern (BinaryFormat.single.encode (n < 0) n.natAbs 0)

/-- The double nearest to an integer. -/
def doubleOfInt (n : Int) : Float :=
  doubleOfPattern (BinaryFormat.double.encode (n < 0) n.natAbs 0)

/-! ### The fewest digits -/

/-- Which neighbour is written when two shortest decimals are equally near. -/
inductive TieRule where
  | up
  | even
deriving DecidableEq, Repr

/-- The shortest decimal that reads back as the positive number `mantissa * 2 ^ scale`, as
digits and exponent.

In quarters of a unit of the mantissa the numbers that round to it lie between `4m - 2` and
`4m + 2`; below a power of two the neighbour is nearer, so there the lower end is `4m - 1`.
The ends belong to it when the mantissa is even. On each decimal grid, from the coarsest on,
only the two points next to the number need a look: if any point of the grid reads back, one
of these does. -/
def shortest (f : BinaryFormat) (tie : TieRule) (mantissa : Nat) (scale : Int) : Nat × Int :=
  let quarter := scale - 2
  let value := 4 * mantissa
  let lower :=
    if mantissa = pow2 f.fractionBits && f.minScale < scale then value - 1 else value - 2
  let upper := value + 2
  let closed := mantissa % 2 == 0
  let order : Int := ((mantissa.log2 : Int) + scale) * 30103 / 100000 + 2
  let grid (places : Nat) : Option (Nat × Int) :=
    let exponent := order - places
    let unit := pow10 exponent.toNat * pow2 (-quarter).toNat
    let step := pow2 quarter.toNat * pow10 (-exponent).toNat
    let target := value * step
    let floor := target / unit
    let hit (d : Nat) : Bool :=
      if closed then lower * step ≤ d * unit && d * unit ≤ upper * step
      else lower * step < d * unit && d * unit < upper * step
    let below := target - floor * unit
    let above := (floor + 1) * unit - target
    let pickFloor :=
      below < above || (below == above && tie == .even && floor % 2 == 0)
    if hit floor && hit (floor + 1) then
      some (if pickFloor then floor else floor + 1, exponent)
    else if hit floor then some (floor, exponent)
    else if hit (floor + 1) then some (floor + 1, exponent)
    else none
  ((List.range 20).findSome? grid).getD (0, 0)

/-- Drops trailing zeros of the digits, raising the exponent. -/
def stripZeros (digits : List Char) (exponent : Int) : List Char × Int :=
  let kept := (digits.reverse.dropWhile (· == '0')).reverse
  (kept, exponent + (digits.length - kept.length : Nat))

/-- Digits and exponent of a positive number, without trailing zeros. -/
def shortestDigits (f : BinaryFormat) (tie : TieRule) (mantissa : Nat) (scale : Int) :
    List Char × Int :=
  let (digits, exponent) := shortest f tie mantissa scale
  stripZeros (digitChars digits) exponent

/-! ### Layouts -/

/-- Puts a point into digits: `digits * 10 ^ exponent` without an exponent. -/
def placePoint (digits : List Char) (exponent : Int) : List Char :=
  if 0 ≤ exponent then digits ++ List.replicate exponent.toNat '0'
  else
    let places := (-exponent).toNat
    if places < digits.length then
      digits.take (digits.length - places) ++ '.' :: digits.drop (digits.length - places)
    else '0' :: '.' :: (List.replicate (places - digits.length) '0' ++ digits)

/-- The text of a double with a sign, digits and a point where one is needed. -/
def positional (x : Float) : String :=
  match doubleValue x with
  | .notANumber => "NaN"
  | .infinite negative => if negative then "-inf" else "inf"
  | .finite negative m scale =>
    let body :=
      if m = 0 then ['0']
      else
        let (digits, exponent) := shortestDigits .double .up m scale
        placePoint digits exponent
    String.ofList (if negative then '-' :: body else body)

/-- How a format writes a number with a fraction or an exponent. -/
structure ScientificStyle where
  /-- The most digits before the point in positional notation. -/
  wholeLimit : Int
  /-- The most zeros between the point and the first digit in positional notation. -/
  zeroLimit : Int

/-- The text of a finite number that always shows a point or an exponent. -/
def scientific (style : ScientificStyle) (f : BinaryFormat) (negative : Bool) (mantissa : Nat)
    (scale : Int) : String :=
  let body :=
    if mantissa = 0 then ['0', '.', '0']
    else
      let (digits, exponent) := shortestDigits f .even mantissa scale
      let whole := exponent + digits.length
      if 0 ≤ exponent && whole ≤ style.wholeLimit then placePoint digits exponent ++ ['.', '0']
      else if 0 < whole && whole ≤ style.wholeLimit then placePoint digits exponent
      else if -style.zeroLimit ≤ whole && whole ≤ 0 then placePoint digits exponent
      else
        let power := (toString (whole - 1)).toList
        match digits with
        | [d] => d :: 'e' :: power
        | d :: rest => d :: '.' :: (rest ++ 'e' :: power)
        | [] => []
  String.ofList (if negative then '-' :: body else body)

/-! ### Reading a numeral -/

/-- The value of a run of decimal digits. -/
def digitsValue (digits : List Char) : Nat :=
  digits.foldl (fun n c => 10 * n + (c.toNat - 48)) 0

/-- An optional sign: whether it is a minus, and the rest. -/
def splitSign : List Char → Bool × List Char
  | '-' :: rest => (true, rest)
  | '+' :: rest => (false, rest)
  | rest => (false, rest)

/-- An exponent with at least one digit, or the empty text. -/
def readExponent? : List Char → Option Int
  | [] => some 0
  | c :: rest =>
    if c == 'e' || c == 'E' then
      let (negative, digits) := splitSign rest
      if digits.isEmpty || !digits.all Char.isDigit then none
      else some (if negative then -digitsValue digits else digitsValue digits)
    else none

/-- Reads a double: a sign, then the words for infinity and not-a-number in any case, or
digits with a point anywhere among them and an optional exponent. -/
def readDouble? (s : String) : Option Float :=
  let (negative, body) := splitSign s.toList
  let word := String.ofList (body.map Char.toLower)
  if word == "inf" || word == "infinity" then
    some (doubleOfPattern
      (BinaryFormat.double.infinity + if negative then BinaryFormat.double.signBit else 0))
  else if word == "nan" then some (0 / 0)
  else
    let whole := body.takeWhile Char.isDigit
    let afterWhole := body.dropWhile Char.isDigit
    let (fraction, rest) :=
      match afterWhole with
      | '.' :: tail => (tail.takeWhile Char.isDigit, tail.dropWhile Char.isDigit)
      | tail => ([], tail)
    if whole.isEmpty && fraction.isEmpty then none
    else
      (readExponent? rest).map fun exponent =>
        Decimal.toDouble ⟨negative, digitsValue (whole ++ fraction), exponent - fraction.length⟩

end BulletHell
