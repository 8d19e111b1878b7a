import BulletHell.Number.Decimal

/-!
# Clock time

The scheduler adds, subtracts and scales clock readings and compares them; it needs nothing
else of them. `ClockTime` says just that, so one scheduler serves the running program, where a
reading is a double, and the study of the beat grid, where it is a rational number and nothing
is rounded.
-/

namespace BulletHell

/-- Numbers that can serve as clock readings, in seconds. -/
class ClockTime (τ : Type) extends Add τ, Sub τ, Mul τ, Div τ where
  /-- A whole number of seconds, or a plain count. -/
  ofInt : Int → τ
  /-- Is the first reading no later than the second? Nothing is no later than a reading that
  is not a number, nor the other way round. -/
  atMost : τ → τ → Bool

instance : ClockTime Float where
  ofInt := doubleOfInt
  atMost a b := a ≤ b

instance : ClockTime Rat where
  ofInt n := n
  atMost a b := a ≤ b

namespace ClockTime

variable {τ : Type} [ClockTime τ]

/-- Has the deadline come? -/
def due (deadline now : τ) : Bool :=
  atMost deadline now

/-- Is the first reading earlier than the second? -/
def earlier (a b : τ) : Bool :=
  atMost a b && !atMost b a

/-- The time from one reading to another, zero unless it is positive. So the sign of a zero
difference is lost, and so is a difference that is not a number. -/
def elapsed (since now : τ) : τ :=
  let d := now - since
  if earlier (ofInt 0) d then d else ofInt 0

end ClockTime

end BulletHell
