import NodeClock.Coap.Frame
import NodeClock.Target.Host
import NodeClock.Text.Blank

/-!
# Targets

A target is a host, a UDP port and the path of a resource. It is checked when it is made, so
that a bad one is known before anything is sent.

* `Target`: a target.
* `Target.make`, `Target.withPort`, `Target.withPath`: how targets come about.
* `Target.render`: the URI of a target.
* `SocketAddress`, `Target.address?`: the address of a target that needs no look-up.
-/

namespace NodeClock

/-- A node's resource. -/
structure Target where
  host : Host
  port : UInt16
  segments : List String
  deriving DecidableEq, Repr

/-- An address and port to send to, with a zone index for IPv6. -/
inductive SocketAddress where
  | v4 (addr : Net.Ipv4) (port : UInt16)
  | v6 (addr : Net.Ipv6) (zone : Nat) (port : UInt16)
  deriving DecidableEq, Repr

/-- `1.2.3.4:5`, `[::1]:5` or `[::1%2]:5`; zone 0 is not shown. -/
def SocketAddress.render : SocketAddress → String
  | .v4 a port => a.render ++ ":" ++ Decimal.render port.toNat
  | .v6 a zone port =>
    let shown := if zone = 0 then "" else "%" ++ Decimal.render zone
    "[" ++ a.render ++ shown ++ "]:" ++ Decimal.render port.toNat

namespace Target

/-- The resource that holds a node's clock. -/
def defaultPath : String := "/date"

/-- Bytes in the longest path segment. -/
def maxSegment : Nat := 255

/-- The port that a text gives: digits only, from 1 to 65535. -/
def readPort (s : List Char) : Except TargetError UInt16 :=
  match Decimal.read? 65535 s with
  | some (n + 1) => .ok (UInt16.ofNat (n + 1))
  | _ => .error (.invalidPort (String.ofList s))

/-- What is wrong with a path segment, if anything. -/
def segmentFault? (s : List Char) : Option String :=
  if s.isEmpty then some "empty segment"
  else if s = ['.'] ∨ s = ['.', '.'] then some "relative segment"
  else if (Utf8.encode (String.ofList s)).length > maxSegment then
    some "segment longer than 255 bytes"
  else none

/-- The segments of a path, or what is wrong with it. -/
def pathSegments : List Char → Except String (List String)
  | '/' :: rest =>
    if rest.any (fun c => c == '?' || c == '#') then .error "query and fragment are not allowed"
    else if rest.isEmpty then .error "names no resource"
    else
      let segments := rest.splitOn '/'
      match segments.findSome? segmentFault? with
      | some fault => .error fault
      | none => .ok (segments.map String.ofList)
  | _ => .error "must start with '/'"

def readPath (path : String) : Except TargetError (List String) :=
  match pathSegments path.toList with
  | .ok segments => .ok segments
  | .error reason => .error (.invalidPath path reason)

/-- The host and the port of an authority as texts. Brackets end at the first closing one; of
texts without brackets only one with a single colon has a port. -/
def splitAuthority (s : List Char) : Except TargetError (List Char × Option (List Char)) :=
  match s with
  | '[' :: rest =>
    match Text.cut ']' rest with
    | some (host, []) => .ok (host, none)
    | some (host, ':' :: port) => .ok (host, some port)
    | _ => .error (.invalidHost (String.ofList s))
  | _ =>
    match s.count ':', Text.cut ':' s with
    | 1, some (host, port) => .ok (host, some port)
    | _, _ => .ok (s, none)

/-- The target at an authority (`host`, `host:port`, `[host]:port`, blanks around it ignored)
with a path. Of several faults that of the host is blamed first, then the port, then the path. -/
def make (authority path : String) : Except TargetError Target :=
  match splitAuthority (Text.trim authority.toList) with
  | .error e => .error e
  | .ok (hostText, portText) =>
    match Host.read hostText with
    | .error e => .error e
    | .ok host =>
      match portText.elim (.ok Coap.defaultPort) readPort with
      | .error e => .error e
      | .ok port =>
        match readPath path with
        | .error e => .error e
        | .ok segments => .ok { host, port, segments }

/-- The target at an authority with the default path. -/
def ofAuthority (authority : String) : Except TargetError Target := make authority defaultPath

/-- The target with another port; 0 is none. -/
def withPort (t : Target) (port : UInt16) : Except TargetError Target :=
  if port = 0 then .error (.invalidPort "0") else .ok { t with port }

/-- The target with another path. -/
def withPath (t : Target) (path : String) : Except TargetError Target :=
  match readPath path with
  | .error e => .error e
  | .ok segments => .ok { t with segments }

/-- The path as text. -/
def path (t : Target) : String := "/" ++ "/".intercalate t.segments

/-- The host that a request has to name: an address is known from where the request goes. -/
def uriHost? (t : Target) : Option String :=
  match t.host with
  | .named n => some n
  | _ => none

/-- The URI of a target. -/
def render (t : Target) : String :=
  "coap://" ++ t.host.render ++ ":" ++ Decimal.render t.port.toNat ++ t.path

/-- The greatest zone index, 2 ^ 32 - 1. -/
def maxZoneIndex : Nat := 0xFFFFFFFF

/-- The number of a zone that is given by its index. -/
def zoneIndex? (zone : String) : Option Nat := Decimal.read? maxZoneIndex zone.toList

/-- Where to send to, if that needs no look-up of a name or an interface. -/
def address? (t : Target) : Option SocketAddress :=
  match t.host with
  | .v4 a => some (.v4 a t.port)
  | .v6 a => some (.v6 a 0 t.port)
  | .zoned a zone => (zoneIndex? zone).map fun i => .v6 a i t.port
  | .named _ => none

end Target

end NodeClock
