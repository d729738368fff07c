import NodeClock.Cli.Program
import NodeClock.Exchange.Session
import NodeClock.SystemError
import Std.Async.DNS
import Std.Async.Select
import Std.Async.Timer
import Std.Async.UDP
import Std.Time

/-!
# The command line over UDP

Sockets, clocks and standard output for the program. All that is decided is decided elsewhere.

* `openSocket`: a socket connected to a target.
* `exchangeOver`: an exchange on a socket.
* `main`: the program.
-/

namespace NodeClock.Main

open Coap Std.Async

/-- The number of an error, if it has one. It may stand in a text alone, or with its sign
turned. -/
def errorNumber? (e : IO.Error) : Option Nat :=
  let number? : Option UInt32 := match e with
    | .alreadyExists _ n _ | .interrupted _ n _ | .noFileOrDirectory _ n _
    | .invalidArgument _ n _ | .permissionDenied _ n _ | .resourceExhausted _ n _
    | .inappropriateType _ n _ | .noSuchThing _ n _ => some n
    | .otherError n _ | .resourceBusy n _ | .resourceVanished n _ | .unsupportedOperation n _
    | .hardwareFault n _ | .unsatisfiedConstraints n _ | .illegalOperation n _
    | .protocolError n _ | .timeExpired n _ => some n
    | .userError text => do
      let behind ← (text.splitOn "error code: ")[1]?
      let number ← (String.ofList (behind.toList.takeWhile Char.isDigit)).toNat?
      return number.toUInt32
    | .unexpectedEof => none
  number?.map fun n => if n < 0x80000000 then n.toNat else (-n).toNat

def ioError (e : IO.Error) : IoError :=
  match errorNumber? e with
  | some n => .ofNumber n e.toString
  | none => { kind := .other, text := e.toString }

/-- Where to send to. Zones and names are looked up. -/
def resolve (t : Target) : Async (Except TransportError Std.Net.SocketAddress) := do
  match t.address?, t.host with
  | some (.v4 a port), _ => return .ok (v4 a.render port)
  | some (.v6 a _ port), _ => return .ok (v6 a.render port)
  | none, .zoned a _ => return .ok (v6 a.render t.port)
  | none, host =>
    try
      match (← DNS.getAddrInfo host.render "").toList with
      | .v4 addr :: _ => return .ok (.v4 ⟨addr, t.port⟩)
      | .v6 addr :: _ => return .ok (.v6 ⟨addr, t.port⟩)
      | [] => return .error (.noAddresses host.render)
    catch e => return .error (.resolve host.render e.toString)
where
  v4 (text : String) (port : UInt16) : Std.Net.SocketAddress :=
    .v4 ⟨(Std.Net.IPv4Addr.ofString text).getD ⟨#v[0, 0, 0, 0]⟩, port⟩
  v6 (text : String) (port : UInt16) : Std.Net.SocketAddress :=
    .v6 ⟨(Std.Net.IPv6Addr.ofString text).getD ⟨#v[0, 0, 0, 0, 0, 0, 0, 0]⟩, port⟩

/-- A socket connected to a target. -/
def openSocket (t : Target) : Async (Except TransportError UDP.Socket) := do
  match ← resolve t with
  | .error e => return .error e
  | .ok peer =>
    try
      let socket ← UDP.Socket.mk
      socket.connect peer
      return .ok socket
    catch e => return .error (.io (ioError e))

/-- Sends a datagram, if the system lets it. -/
def send (socket : UDP.Socket) (datagram : Bytes) : Async (Except IoError Unit) := do
  try
    socket.send ⟨datagram.toArray⟩
    return .ok ()
  catch e => return .error (ioError e)

/-- Sends datagrams up to the first that the system refuses. -/
def sendAll (socket : UDP.Socket) : List Bytes → Async (Except IoError Unit)
  | [] => return .ok ()
  | datagram :: rest => do
    match ← send socket datagram with
    | .error e => return .error e
    | .ok () => sendAll socket rest

/-- What happens next to an exchange, or nothing until its deadline. -/
def nextEvent (socket : UDP.Socket) (x : Exchange) (deadline? : Option Instant) :
    Async (Option Exchange.Event) := do
  try
    let receive := Selectable.case (socket.recvSelector receiveLimit.toUInt64) fun (bytes, _) =>
      pure (some (Exchange.Event.received bytes.toList (.ok ())))
    let now ← IO.monoNanosNow
    match (x.timer?.toList ++ deadline?.toList).min? with
    | none => Selectable.one #[receive]
    | some moment =>
      let sleep ← Selector.sleep ⟨(moment - now + Span.milliNanos - 1) / Span.milliNanos⟩
      let wake := Selectable.case sleep fun _ => do
        let now : Instant ← IO.monoNanosNow
        if deadline?.any (· ≤ now) && !x.timer?.any (· ≤ now) then return none
        return some (.expired (max now moment) (.ok ()))
      Selectable.one #[receive, wake]
  catch e => return some (.broken (ioError e))

/-- Runs an exchange to its end or its deadline. -/
partial def exchangeOver (socket : UDP.Socket) (deadline? : Option Instant) (x : Exchange) :
    Async (Except CallError Response) := do
  match ← nextEvent socket x deadline? with
  | none => return .error .timeout
  | some event =>
    let (datagrams, standing) := x.step event
    let standing := match event, ← sendAll socket datagrams with
      | .expired now _, .error e => (x.step (.expired now (.error e))).2
      | _, _ => standing
    match standing with
    | .ended result => return result.mapError .transport
    | .pending y => exchangeOver socket deadline? y

/-- A number from some random bytes. -/
def randomNumber (bytes : Nat) : IO Nat := do
  return (← IO.getRandomBytes bytes.toUSize).foldl (fun n b => n * 256 + b.toNat) 0

/-- Makes a call with the retransmission that is taken by default. -/
def performCall (call : Call) (target : Target) : Async (Except CallError Response) := do
  match call.request with
  | .error e => return .error (.transport (.encode e.message))
  | .ok request =>
    let start : Instant ← IO.monoNanosNow
    match ← openSocket target with
    | .error e => return .error (.transport e)
    | .ok socket =>
      let session : Session :=
        { policy := {}, nextId := .ofNat (← randomNumber 2) }
      let token := (← IO.getRandomBytes tokenLength.toUSize).toList
      let draw := (← randomNumber 8) % Policy.drawSteps
      let now : Instant ← IO.monoNanosNow
      match (session.begin token draw now request).2 with
      | .error e => return .error (.transport e)
      | .ok x =>
        match ← send socket x.datagram with
        | .error e => return .error (.transport (.io e))
        | .ok () => exchangeOver socket (start.after? call.timeout) x

/-- The time that a clock shows now. -/
def currentTime (clock : ClockSource) : IO Civil := do
  let now ← Std.Time.DateTime.now
  return clock.timeAt now.toTimestamp.toSecondsSinceUnixEpoch.val 0 now.offset.second.val

/-- Sockets, standard output and standard error. -/
def services : Cli.Services IO where
  set client target := do
    let answer ← (performCall (client.set target (← currentTime client.clock)) target).block
    return Outcome.ofAnswer (answer.map (·.code))
  read client target := do
    let answer ← (performCall (client.read target) target).block
    return Reading.ofAnswer (← currentTime .utc) answer
  print line := IO.println line
  log line := IO.eprintln line
  complain line := IO.eprintln line

end NodeClock.Main

/-- The program: its exit status is that of its call. -/
def main (args : List String) : IO UInt32 := do
  let env : NodeClock.Cli.Environment :=
    { host := ← IO.getEnv "RTC_SYNC_HOST", port := ← IO.getEnv "RTC_SYNC_PORT"
      path := ← IO.getEnv "RTC_SYNC_PATH", timeout := ← IO.getEnv "RTC_SYNC_TIMEOUT" }
  let filter := NodeClock.Cli.LogFilter.ofText? ((← IO.getEnv "RUST_LOG").getD "")
  return (← NodeClock.Cli.perform NodeClock.Main.services filter env args).toUInt32
