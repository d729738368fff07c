import NodeClock.Coap.Frame
import NodeClock.Failure
import NodeClock.Span.Basic

/-!
# Exchanges

An exchange sends one confirmable request and waits for the answer to it. Until the request is
acknowledged it is sent again and again, up to a number of times. All that happens to an exchange
is an event, and each event brings datagrams to send and either the next state or the end.

* `Exchange`: an exchange under way, and `Exchange.start`, its first state.
* `Exchange.judge`: what a message means to the exchange.
* `Exchange.answer?`: the message that a message has to be answered with.
* `Exchange.Event`, `Exchange.step`, `Exchange.run`: what happens and what is done.
-/

namespace NodeClock

open Coap

/-- Bytes of a datagram that are received; what is beyond is lost. -/
def receiveLimit : Nat := 1280

/-- An exchange under way. -/
structure Exchange where
  messageId : UInt16
  token : Bytes
  datagram : Bytes
  maxRetransmit : UInt32
  wait : Span
  deadline : Option Instant
  acknowledged : Bool := false
  retransmits : Nat := 0
  deriving DecidableEq, Repr

namespace Exchange

/-- The exchange that sends a request at `now`. -/
def start (maxRetransmit : UInt32) (messageId : UInt16) (token : Bytes) (wait : Span)
    (now : Instant) (r : Request) : Except TransportError Exchange :=
  match (Frame.ofRequest .confirmable messageId token r).encode with
  | .error e => .error (.ofCodec e)
  | .ok datagram =>
    .ok { messageId, token, datagram, maxRetransmit, wait, deadline := now.after? wait }

/-- When the request is to be sent again, if it is. -/
def timer? (x : Exchange) : Option Instant :=
  if !x.acknowledged && x.retransmits < x.maxRetransmit.toNat then x.deadline else none

/-- What a message means to an exchange. -/
inductive Verdict where
  | answered (r : Response)
  | acknowledged
  | reset
  | unrelated
  deriving DecidableEq, Repr

/-- Acknowledgements and resets are told by the message id, and an acknowledgement with a
response by the token, too. Other responses are told by the token alone. -/
def judge (x : Exchange) (f : Frame) : Verdict :=
  let response := if f.token = x.token then f.response?.elim .unrelated .answered else .unrelated
  match f.kind with
  | .acknowledgement =>
    if f.messageId ≠ x.messageId then .unrelated
    else if f.isEmpty then .acknowledged
    else response
  | .reset => if f.messageId = x.messageId then .reset else .unrelated
  | .confirmable | .nonConfirmable => response

/-- A confirmable message is answered with an empty one: an acknowledgement if it is the awaited
response, a reset otherwise. -/
def answer? (x : Exchange) (f : Frame) : Option Frame :=
  match f.kind with
  | .confirmable =>
    let awaited := f.token = x.token ∧ f.response?.isSome
    some (.empty (if awaited then .acknowledgement else .reset) f.messageId)
  | _ => none

/-- What happens to an exchange. `sent` tells whether what is sent thereupon could be sent. -/
inductive Event where
  | received (datagram : Bytes) (sent : Except IoError Unit)
  | expired (now : Instant) (sent : Except IoError Unit)
  | broken (e : IoError)

/-- An exchange that goes on, or its end. -/
inductive Standing where
  | pending (x : Exchange)
  | ended (result : Except TransportError Response)

/-- The exchange after its request has been sent again at `now`. -/
def retransmitted (x : Exchange) (now : Instant) : Exchange :=
  let wait := x.wait.double
  { x with retransmits := x.retransmits + 1, wait, deadline := now.after? wait }

/-- The exchange after a message. -/
def accept (x : Exchange) (f : Frame) : Standing :=
  match x.judge f with
  | .answered r => .ended (.ok r)
  | .acknowledged => .pending { x with acknowledged := true }
  | .reset => .ended (.error .reset)
  | .unrelated => .pending x

/-- The datagrams that an event brings to send, and what becomes of the exchange. That an answer
cannot be sent changes nothing; that the request cannot be sent again ends the exchange. -/
def step (x : Exchange) : Event → List Bytes × Standing
  | .received datagram _ =>
    match Frame.decode (datagram.take receiveLimit) with
    | .error _ => ([], .pending x)
    | .ok f => ((x.answer? f).toList.map (·.packet.write), x.accept f)
  | .expired now sent =>
    match x.timer? with
    | none => ([], .pending x)
    | some t =>
      -- a timer that has been set anew since is not due yet
      if now < t then ([], .pending x)
      else match sent with
        | .error e => ([x.datagram], .ended (.error (.io e)))
        | .ok () => ([x.datagram], .pending (x.retransmitted now))
  | .broken e => ([], .ended (.error (.io e)))

/-- The datagrams sent and the standing after some events, and the events that came after the
end. -/
def run (x : Exchange) : List Event → List Bytes × Standing × List Event
  | [] => ([], .pending x, [])
  | e :: rest =>
    match x.step e with
    | (sent, .ended result) => (sent, .ended result, rest)
    | (sent, .pending y) =>
      let (more, standing, unread) := y.run rest
      (sent ++ more, standing, unread)

end Exchange

end NodeClock
