import NodeClock.Exchange.Basic
import NodeClock.Exchange.Policy

/-!
# Sessions

A session is a line to one node on which exchanges follow each other. Each exchange takes the
next message id and a token of its own.

* `Session`: the policy and the next message id.
* `Session.begin`: the next exchange of a session.
-/

namespace NodeClock

open Coap

/-- A line to one node. -/
structure Session where
  policy : Policy
  nextId : UInt16
  deriving DecidableEq, Repr

/-- Bytes in the tokens of requests. -/
def tokenLength : Nat := 4

/-- The next exchange, with a random token and a random draw for its first wait. Its message id
is used up even when the request cannot be encoded. -/
def Session.begin (s : Session) (token : Bytes) (draw : Nat) (now : Instant) (r : Request) :
    Session × Except TransportError Exchange :=
  ({ s with nextId := s.nextId + 1 },
    Exchange.start s.policy.maxRetransmit s.nextId token (s.policy.firstWait draw) now r)

end NodeClock
