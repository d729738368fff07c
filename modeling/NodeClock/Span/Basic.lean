import NodeClock.Text.Decimal

/-!
# Spans of time

Spans are counted in nanoseconds up to a greatest one, and instants in nanoseconds from a
beginning that does not matter.

* `Span`: a span of time, with `Span.ofMillis` and `Span.double`.
* `Span.render`: a span as text.
* `Instant.after?`: the end of a span, if the clock reaches it.
-/

namespace NodeClock

/-- Nanoseconds in a second, a millisecond and a microsecond. -/
def Span.secondNanos : Nat := 1000000000
def Span.milliNanos : Nat := 1000000
def Span.microNanos : Nat := 1000

/-- Nanoseconds in the longest span: one short of 2 ^ 64 seconds. -/
def Span.maxNanos : Nat := 0x10000000000000000 * secondNanos - 1

/-- A span of time. -/
structure Span where
  nanos : Nat
  nanos_le : nanos ≤ Span.maxNanos := by decide
  deriving DecidableEq, Repr

namespace Span

/-- The span of `n` nanoseconds, or the longest one if that is shorter. -/
def ofNanos (n : Nat) : Span := ⟨min n maxNanos, Nat.min_le_right _ _⟩

/-- The span of `n` milliseconds, or the longest one if that is shorter. -/
def ofMillis (n : Nat) : Span := ofNanos (n * milliNanos)

def zero : Span := ⟨0, Nat.zero_le _⟩

/-- The longest span. -/
def longest : Span := ⟨maxNanos, Nat.le_refl _⟩

/-- Twice the span, or the longest one if that is shorter. -/
def double (s : Span) : Span := ofNanos (2 * s.nanos)

/-- `n` nanoseconds in a unit of `scale` nanoseconds, a power of ten with `places` zeros. The
fraction has no zeros at its end. -/
def amount (n scale places : Nat) (unit : String) : String :=
  let fraction := (Decimal.padded places (n % scale)).toList.reverse.dropWhile (· == '0')
  let shown := if fraction.isEmpty then [] else '.' :: fraction.reverse
  Decimal.render (n / scale) ++ String.ofList shown ++ unit

/-- The span in the greatest of the units `s`, `ms`, `µs` and `ns` that it reaches. -/
def render (s : Span) : String :=
  if s.nanos ≥ secondNanos then amount s.nanos secondNanos 9 "s"
  else if s.nanos ≥ milliNanos then amount s.nanos milliNanos 6 "ms"
  else if s.nanos ≥ microNanos then amount s.nanos microNanos 3 "µs"
  else Decimal.render s.nanos ++ "ns"

theorem nanos_ofNanos {n : Nat} (h : n ≤ maxNanos) : (ofNanos n).nanos = n := Nat.min_eq_left h

theorem ofNanos_nanos (s : Span) : ofNanos s.nanos = s := by
  cases s with | mk n h => simp [ofNanos, Nat.min_eq_left h]

end Span

/-- A moment, in nanoseconds. -/
abbrev Instant := Nat

/-- The moment from which on the clock cannot tell the time: 2 ^ 63 seconds. -/
def clockEnd : Instant := 0x8000000000000000 * Span.secondNanos

/-- The moment one span after another, unless the clock cannot tell it. -/
def Instant.after? (now : Instant) (s : Span) : Option Instant :=
  if now + s.nanos < clockEnd then some (now + s.nanos) else none

theorem Instant.le_of_after? {now t : Instant} {s : Span} (h : now.after? s = some t) :
    now ≤ t := by
  unfold after? at h
  split at h
  · cases h
    exact Nat.le_add_right _ _
  · cases h

end NodeClock
