import NodeClock.Failure
import NodeClock.Setting

/-!
# Readings of a clock

A node answers a read with its epoch seconds in decimal, blanks around them allowed.

* `readEpoch`: the number in the body of an answer.
* `Reading`: a node's clock beside the local one.
* `Reading.ofAnswer`: the reading of an answer.
-/

namespace NodeClock

open Coap

private def garbled (detail : String) : CallError := .transport (.protocol detail)

/-- The epoch seconds in the body of an answer. -/
def readEpoch (body : Bytes) : Except CallError Nat :=
  match Utf8.decode? body with
  | none => .error (garbled "clock payload is not UTF-8")
  | some s =>
    let digits := Text.trim s.toList
    let shown := String.ofList digits
    if !Decimal.isNumeral digits then
      .error (garbled s!"clock payload '{shown}' is not epoch seconds")
    else match Decimal.read? Civil.maxEpoch digits with
      | none => .error (garbled s!"clock payload '{shown}' is out of range")
      | some n => .ok n

/-- A node's clock as it was read, and the local clock at that moment, both in UTC. -/
structure Reading where
  remote : Civil
  epoch : Nat
  localTime : Civil
  offset : Int
  deriving DecidableEq, Repr

namespace Reading

/-- The reading of epoch second `epoch` at the local time `now`. -/
def ofEpoch (epoch : Nat) (now : Civil) : Reading :=
  let remote := Civil.ofEpoch epoch
  { remote, epoch, localTime := now, offset := (remote.secondsSince now).getD 0 }

/-- The reading of an answer that came at the local time `now`. -/
def ofAnswer (now : Civil) : Except CallError Response → Except CallError Reading
  | .error e => .error e
  | .ok r =>
    if !r.code.isSuccess then .error (.rejected r.code)
    else match readEpoch r.payload with
      | .error e => .error e
      | .ok epoch => .ok (ofEpoch epoch now)

/-- The reading without the offset. -/
def remoteText (r : Reading) : String :=
  s!"node clock {r.remote.display} UTC (epoch {Decimal.render r.epoch})"

def message (r : Reading) : String := s!"{r.remoteText}, offset {Decimal.signed r.offset}s"

end Reading

/-- Times are data, whether sent or received. -/
def TimeError.ioKind (_ : TimeError) : IoKind := .invalidData

end NodeClock
