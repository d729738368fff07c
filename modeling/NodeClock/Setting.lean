import NodeClock.Coap.Frame
import NodeClock.Target.Basic
import NodeClock.Time.Query

/-!
# Requests for a clock

How a civil time is put into the request that sets a clock, and the request that reads one.

* `SetMethod`, `WireFormat`, `ClockSource`: the choices there are.
* `Civil.render`: the request that carries a time.
* `Target.setRequest`, `Target.readRequest`: the requests for a target.
-/

namespace NodeClock

open Coap

/-- The method that sets a clock. Some nodes know only POST; PUT may be repeated safely. -/
inductive SetMethod where
  | put | post
  deriving DecidableEq, Repr

/-- Where a time travels: as six query pairs, or as epoch seconds in the body. -/
inductive WireFormat where
  | query | epoch
  deriving DecidableEq, Repr

/-- The clock that is read: that of the local zone or that of UTC. -/
inductive ClockSource where
  | localZone | utc
  deriving DecidableEq, Repr

namespace SetMethod

def toMethod : SetMethod → Method
  | put => .put
  | post => .post

def name (m : SetMethod) : String := m.toMethod.name

/-- The method that a text names, in letters of either case. -/
def read (s : String) : Except String SetMethod :=
  let lower := s.toList.map Char.toLower
  if lower = ['p', 'u', 't'] then .ok put
  else if lower = ['p', 'o', 's', 't'] then .ok post
  else .error s!"unsupported method '{s}', expected put or post"

end SetMethod

/-- The request that carries a time to a path. Only the epoch form can fail. -/
def Civil.render (t : Civil) (method : Method) (path : List String) :
    WireFormat → Except TimeError Request
  | .query => .ok { method, path, query := t.pairs }
  | .epoch =>
    match t.epoch with
    | .error e => .error e
    | .ok n =>
      .ok { method, path, contentFormat := some plainText,
            payload := Utf8.encode (Decimal.render n) }

namespace Target

/-- The request that sets the clock of a target. -/
def setRequest (target : Target) (t : Civil) (method : SetMethod) (format : WireFormat) :
    Except TimeError Request :=
  match t.render method.toMethod target.segments format with
  | .error e => .error e
  | .ok r => .ok { r with uriHost := target.uriHost? }

/-- The request that reads the clock of a target. -/
def readRequest (target : Target) : Request :=
  { method := .get, path := target.segments, uriHost := target.uriHost? }

end Target

end NodeClock
