import NodeClock.Call.Basic

/-!
# Clients

A client makes calls with settings of its own.

* `Client`: the settings, with those that are taken by default.
* `Client.set`, `Client.read`: the calls of a client.
* `ClockSource.timeAt`: the time that a client sends.
-/

namespace NodeClock

/-- The settings of a client. -/
structure Client where
  timeout : Span := .ofMillis 10000
  method : SetMethod := .put
  format : WireFormat := .query
  clock : ClockSource := .localZone

/-- What a clock shows at an instant, where the local zone is `zone` seconds east. -/
def ClockSource.timeAt (clock : ClockSource) (secs : Int) (nanos : Nat) (zone : Int) : Civil :=
  match clock with
  | .localZone => .ofInstant secs nanos zone
  | .utc => .ofInstant secs nanos 0

namespace Client

/-- The call that sets the clock of a target to a time. -/
def set (c : Client) (target : Target) (t : Civil) : Call :=
  { purpose := .set, request := target.setRequest t c.method c.format, timeout := c.timeout }

/-- The call that reads the clock of a target. -/
def read (c : Client) (target : Target) : Call :=
  { purpose := .read, request := .ok target.readRequest, timeout := c.timeout }

end Client

end NodeClock
