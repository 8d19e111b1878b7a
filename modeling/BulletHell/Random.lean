/-!
# The random generator

A permuted congruential generator with 64 bits of state and 32-bit output, seeded from a
single 64-bit number. A run of the game is a function of its seed and its inputs, so the
generator is part of the state and every draw returns its successor.

## Main definitions

* `Pcg32.ofSeed` — the generator of a seed.
* `Pcg32.next` — one 32-bit draw.
* `Pcg32.uniform` — a draw from `-s, …, s`.
-/

namespace BulletHell

/-- State and increment of the generator. All arithmetic on them wraps. -/
structure Pcg32 where
  state : UInt64
  increment : UInt64
deriving DecidableEq, Repr

namespace Pcg32

/-- The multiplier of the underlying congruential generator. -/
def multiplier : UInt64 := 6364136223846793005

/-- The increment used while a seed is spread over the state. -/
def seedIncrement : UInt64 := 11634580027462260723

/-- Rotates a word to the right. -/
def rotateRight (word : UInt32) (amount : UInt32) : UInt32 :=
  (word >>> (amount % 32)) ||| (word <<< ((32 - amount % 32) % 32))

/-- The output permutation: a shifted word, rotated by the top five bits. -/
def output (state : UInt64) : UInt32 :=
  rotateRight (((state >>> 18) ^^^ state) >>> 27).toUInt32 (state >>> 59).toUInt32

/-- One step of the generator that spreads a seed. -/
def seedStep (s : UInt64) : UInt64 :=
  s * multiplier + seedIncrement

/-- The 64-bit word made of two draws, the first one low. -/
def joinWords (low high : UInt32) : UInt64 :=
  low.toUInt64 ||| (high.toUInt64 <<< 32)

/-- The generator of a seed. Four draws fill the state and the increment, which is made odd;
then the state is advanced once so that the increment takes part in it. -/
def ofSeed (seed : UInt64) : Pcg32 :=
  let s₀ := seedStep seed
  let s₁ := seedStep s₀
  let s₂ := seedStep s₁
  let s₃ := seedStep s₂
  let increment := joinWords (output s₂) (output s₃) ||| 1
  let state := joinWords (output s₀) (output s₁) + increment
  ⟨state * multiplier + increment, increment⟩

/-- How many words there are. -/
def wordCount : Nat := 0x100000000

/-- One draw. -/
def next (g : Pcg32) : UInt32 × Pcg32 :=
  (output g.state, { g with state := g.state * multiplier + g.increment })

/-- A draw from `-s, …, s`, for `s` below `2 ^ 31`.

The high word of `draw * range` is the candidate. When the low word is so large that one more
bit of the random fraction could still carry into the high word, a second draw decides the
carry. -/
def uniform (g : Pcg32) (s : Nat) : Int × Pcg32 :=
  let range := 2 * s + 1
  let (draw, g) := g.next
  let product := draw.toNat * range
  let high := product / wordCount
  let low := product % wordCount
  if wordCount - range < low then
    let (extra, g) := g.next
    let carry := if wordCount ≤ low + extra.toNat * range / wordCount then 1 else 0
    (-(s : Int) + (high + carry : Nat), g)
  else (-(s : Int) + high, g)

end Pcg32

end BulletHell
