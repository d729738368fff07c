import NodeClock.Call.Basic
import NodeClock.Exchange.Session

/-!
# Rehearsals

An exchange with a node that follows a script, in a time that moves in ticks and only when
nothing else can happen. At one moment what arrives is read first, then timers run out, and last
of all the exchange is given up.

* `Template`, `ScriptedNode`: what a node sends, and when.
* `Line`: the node, what is under way from it, and what it has heard.
* `Line.exchange`: an exchange over a line, up to a moment at which it is given up.
* `Line.call`: a call over a line.
-/

namespace NodeClock

open Coap

/-- The token of a reply, told from that of the request. -/
inductive TokenChoice where
  | same | none | short | long | flip | first
  deriving DecidableEq, Repr

/-- The datagram of a reply: given in full, or told from the request. -/
inductive Template where
  | raw (datagram : Bytes)
  | built (version : Nat) (kind : Kind) (code : UInt8) (idOffset : UInt16) (token : TokenChoice)
      (options : Bytes) (payload : Option Bytes)
  deriving DecidableEq, Repr

/-- A reply and the nanoseconds after which it is sent. -/
structure Reply where
  delay : Nat
  template : Template
  deriving DecidableEq, Repr

/-- The message id and the token of a request. -/
structure RequestHead where
  messageId : UInt16
  token : Bytes
  deriving DecidableEq, Repr

namespace RequestHead

/-- The head of a datagram whose code is that of a request. -/
def ofDatagram? : Bytes → Option RequestHead
  | first :: code :: high :: low :: rest =>
    if 1 ≤ code ∧ code < 32 then
      some { messageId := UInt16.ofNat (high.toNat * 256 + low.toNat)
             token := rest.take (first.toNat % 16) }
    else none
  | _ => none

end RequestHead

/-- The token that a choice tells from that of a request, `first` being that of the first one. -/
def TokenChoice.apply (first token : Bytes) : TokenChoice → Bytes
  | same => token
  | none => []
  | short => token.dropLast
  | long => token ++ [0]
  | flip => token.dropLast ++ (token.getLast?.map (· ^^^ 1)).toList
  | .first => first

/-- The datagram of a reply to the request `head`. -/
def Template.datagram (first : Bytes) (head : RequestHead) : Template → Bytes
  | raw bs => bs
  | built version kind code idOffset choice options payload =>
    let token := choice.apply first head.token
    let id := (head.messageId + idOffset).toNat
    UInt8.ofNat (version * 64 + kind.bits * 16 + token.length) :: code ::
      UInt8.ofNat (id / 256) :: UInt8.ofNat id ::
      (token ++ options ++ payload.elim [] (payloadMark :: ·))

/-- A node that has replies ready for the requests to come; later ones get none. -/
structure ScriptedNode where
  replies : List (List Reply)
  firstToken : Option Bytes := none

/-- The node after a datagram, and the datagrams that it will send, with the nanoseconds until
then. -/
def ScriptedNode.hear (n : ScriptedNode) (datagram : Bytes) : ScriptedNode × List (Nat × Bytes) :=
  match RequestHead.ofDatagram? datagram with
  | none => (n, [])
  | some head =>
    let first := n.firstToken.getD head.token
    ({ replies := n.replies.tail, firstToken := some first },
      (n.replies.headD []).map fun r => (r.delay, r.template.datagram first head))

/-- The line to a node. Replies under way stand in the order in which they arrive. -/
structure Line where
  node : ScriptedNode
  fault : Option IoError := none
  now : Instant := 0
  underway : List (Instant × Bytes) := []
  inbox : List Bytes := []
  heard : List (Instant × Bytes) := []
  exchanges : Nat := 0

namespace Line

/-- The step in which time moves. -/
def tick : Nat := 10 * Span.milliNanos

/-- The first moment from `t` on at which time stands. -/
def tickFrom (t : Instant) : Instant := (t + tick - 1) / tick * tick

/-- A reply put in its place, behind those that arrive at the same moment. -/
def enqueue (entry : Instant × Bytes) : List (Instant × Bytes) → List (Instant × Bytes)
  | [] => [entry]
  | x :: rest => if entry.1 < x.1 then entry :: x :: rest else x :: enqueue entry rest

/-- The line after the node has received a datagram. -/
def send (l : Line) (datagram : Bytes) : Line :=
  let (node, replies) := l.node.hear datagram
  { l with
    node
    heard := l.heard ++ [(l.now, datagram)]
    underway := replies.foldl (fun q (delay, bs) => enqueue (l.now + delay, bs) q) l.underway }

/-- The line at the later moment `t`, with all that has arrived until then. -/
def moveTo (l : Line) (t : Instant) : Line :=
  { l with
    now := t
    inbox := l.inbox ++ (l.underway.takeWhile (·.1 ≤ t)).map (·.2)
    underway := l.underway.dropWhile (·.1 ≤ t) }

/-- When something happens next: a reply arrives, the request is sent again, or the exchange is
given up. -/
def nextMoment (l : Line) (x : Exchange) (until? : Option Instant) : Option Instant :=
  let moments := (l.underway.head?.map (·.1)).toList ++ x.timer?.toList ++ until?.toList
  moments.min?.map tickFrom

/-- The line and the exchange after at most `n` further events. An exchange that has been given
up, or to which nothing happens any more, is left pending. -/
def advance (until? : Option Instant) : Nat → Line → Exchange → Line × Exchange.Standing
  | 0, l, x => (l, .pending x)
  | n + 1, l, x =>
    let after (l : Line) (event : Exchange.Event) : Line × Exchange.Standing :=
      match x.step event with
      | (sent, .ended result) => (sent.foldl send l, .ended result)
      | (sent, .pending y) => advance until? n (sent.foldl send l) y
    -- first what has arrived, then the timer, then the end, and only then time moves
    match l.inbox with
    | datagram :: rest => after { l with inbox := rest } (.received datagram (.ok ()))
    | [] =>
      if x.timer?.any (· ≤ l.now) then after l (.expired l.now (.ok ()))
      else if until?.any (· ≤ l.now) then (l, .pending x)
      else match l.nextMoment x until? with
        | none => (l, .pending x)
        | some t => advance until? n (l.moveTo (max l.now t)) x

/-- A bound on the events of an exchange: datagrams to read, moments and retransmissions. -/
def eventBound (l : Line) (x : Exchange) : Nat :=
  let replies := l.inbox.length + l.underway.length + l.node.replies.flatten.length
  2 * (replies + x.maxRetransmit.toNat + 1) + 1

/-- The token of the next exchange. -/
def nextToken (l : Line) : Bytes :=
  let n := 0x9E3779B0 + 2 * l.exchanges
  [0x1000000, 0x10000, 0x100, 1].map fun weight => UInt8.ofNat (n / weight)

/-- The next exchange of a session over the line, given up at `until?`. -/
def exchange (l : Line) (s : Session) (until? : Option Instant) (r : Request) :
    Line × Session × Exchange.Standing :=
  let (s, begun) := s.begin l.nextToken 0 l.now r
  let l := { l with exchanges := l.exchanges + 1 }
  match begun with
  | .error e => (l, s, .ended (.error e))
  | .ok x =>
    let l := l.send x.datagram
    let (l, standing) := l.advance until? (l.eventBound x) x
    (l, s, standing)

/-- The line for a new session: nothing is under way and nothing has been heard. -/
def renew (l : Line) : Line :=
  { l with underway := [], inbox := [], heard := [], node := { l.node with firstToken := none } }

/-- A call over the line in a session of its own. Its limits are kept at the next tick. -/
def call (l : Line) (s : Session) (c : Call) : Line × Run × List (Instant × Effect) :=
  let l := l.renew
  let onTick (s : Span) : Span := .ofNanos (tickFrom (l.now + s.nanos) - l.now)
  let c := { c with timeout := onTick c.timeout, cancelAfter := c.cancelAfter.map onTick }
  let run : Run := { call := c, start := l.now }
  match l.fault, c.request with
  | some e, _ =>
    let (run, effects) := run.finish { opening := .ends 0 (.error (.io e)) }
    (l, run, effects)
  | none, .error _ =>
    let (run, effects) := run.finish {}
    (l, run, effects)
  | none, .ok r =>
    let limits := run.deadline?.toList ++ c.cancelAfter.toList.map (l.now + ·.nanos)
    let (l, _, standing) := l.exchange s limits.min? r
    let wait := match standing with
      | .ended result => .ends (l.now - run.start) result
      | .pending _ => .never
    let (run, effects) := run.finish { exchange := wait }
    (l, run, effects)

end Line

end NodeClock
