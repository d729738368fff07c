import NodeClock.Span.Basic

/-!
# Retransmission

A request that is not acknowledged is sent again, after waits that double each time. The first
wait is drawn at random from an interval, in floating-point numbers of seconds.

* `Factor`: the width of that interval.
* `Span.toSeconds`, `Span.ofSeconds?`: spans as numbers of seconds.
* `Policy`: the parameters of retransmission, with those that are taken by default.
* `Policy.firstWait`: the first wait.
-/

namespace NodeClock

/-- A factor: `mantissa / 10 ^ places`, or what is not a finite number. -/
inductive Factor where
  | finite (mantissa : Int) (places : Nat)
  | infinite (negative : Bool)
  | notANumber
  deriving DecidableEq, Repr

/-- The number nearest to a factor. -/
def Factor.toFloat : Factor → Float
  | .finite mantissa places =>
    let size := Float.ofScientific mantissa.natAbs true places
    if mantissa < 0 then -size else size
  | .infinite negative => if negative then -1.0 / 0.0 else 1.0 / 0.0
  | .notANumber => 0.0 / 0.0

namespace Span

/-- The span as a number of seconds, rounded as its two parts and their sum are. -/
def toSeconds (s : Span) : Float :=
  Float.ofNat (s.nanos / secondNanos) + Float.ofNat (s.nanos % secondNanos) / 1e9

/-- `n / d` rounded to the nearest number, and to the even one of two. -/
def roundEven (n d : Nat) : Nat :=
  let q := n / d
  let r := n % d
  if d < 2 * r ∨ d = 2 * r ∧ q % 2 = 1 then q + 1 else q

/-- Fractions of a floating-point number, 2 ^ 52. -/
def fractions : Nat := 0x10000000000000

/-- The span of `x` seconds to the nanosecond, if there are fewer than 2 ^ 64. No number of seconds
here is negative. -/
def ofSeconds? (x : Float) : Option Span :=
  let bits := x.toBits.toNat
  let exponent := bits / fractions % 2048
  let significand := fractions + bits % fractions
  -- the exponents from here on are those of 2 ^ 64 and more, of infinity and of no number
  if exponent < 1087 then
    some (.ofNanos (roundEven (significand * Nat.pow 2 exponent * secondNanos) (Nat.pow 2 1075)))
  else none

end Span

/-- The parameters of retransmission. -/
structure Policy where
  ackTimeout : Span := .ofMillis 2000
  factor : Factor := .finite 15 1
  maxRetransmit : UInt32 := 4
  deriving DecidableEq, Repr

namespace Policy

/-- Requests are sent once and never again. -/
def disabled : Policy := { maxRetransmit := 0 }

/-- A draw from the unit interval is one of so many equal steps, 2 ^ 53. -/
def drawSteps : Nat := 0x20000000000000

/-- The first wait, for the draw `draw / drawSteps`: from `ackTimeout` to `factor` times as much, as
far as floating-point numbers tell. A factor below one, or none at all, counts as one, and what is
too long for a span is the longest one. -/
def firstWait (p : Policy) (draw : Nat) : Span :=
  let given := p.factor.toFloat
  let factor := if 1.0 < given then given else 1.0
  let unit := Float.ofNat draw / Float.ofNat drawSteps
  (Span.ofSeconds? (p.ackTimeout.toSeconds * (1.0 + (factor - 1.0) * unit))).getD .longest

/-- Rounding lets the greatest draw reach the end of the interval. -/
example : firstWait {} (drawSteps - 1) = .ofMillis 3000 := by decide +kernel

end Policy

end NodeClock
