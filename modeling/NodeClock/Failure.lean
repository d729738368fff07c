import NodeClock.Coap.Code
import NodeClock.Target.Host

/-!
# Failures

What can go wrong between a client and a node, from the socket up to the answer.

* `IoKind`, `IoError`: what the operating system reports.
* `TransportError`: failures below the level of requests and responses.
* `CallError`: why a call brought no success.
* `TimeError.ioKind`, `CodecError.ioKind`, `CallError.ioKind`: the same failures to callers that
  only know the system's kinds.
-/

namespace NodeClock

/-- The kinds of errors that the operating system tells apart. -/
inductive IoKind where
  | notFound | permissionDenied | connectionRefused | connectionReset | hostUnreachable
  | networkUnreachable | connectionAborted | notConnected | addrInUse | addrNotAvailable
  | networkDown | brokenPipe | alreadyExists | wouldBlock | invalidInput | invalidData | timedOut
  | writeZero | interrupted | unsupported | unexpectedEof | outOfMemory | other
  deriving DecidableEq, Repr

namespace IoKind

def name : IoKind → String
  | notFound => "NotFound"
  | permissionDenied => "PermissionDenied"
  | connectionRefused => "ConnectionRefused"
  | connectionReset => "ConnectionReset"
  | hostUnreachable => "HostUnreachable"
  | networkUnreachable => "NetworkUnreachable"
  | connectionAborted => "ConnectionAborted"
  | notConnected => "NotConnected"
  | addrInUse => "AddrInUse"
  | addrNotAvailable => "AddrNotAvailable"
  | networkDown => "NetworkDown"
  | brokenPipe => "BrokenPipe"
  | alreadyExists => "AlreadyExists"
  | wouldBlock => "WouldBlock"
  | invalidInput => "InvalidInput"
  | invalidData => "InvalidData"
  | timedOut => "TimedOut"
  | writeZero => "WriteZero"
  | interrupted => "Interrupted"
  | unsupported => "Unsupported"
  | unexpectedEof => "UnexpectedEof"
  | outOfMemory => "OutOfMemory"
  | other => "Other"

def all : List IoKind :=
  [notFound, permissionDenied, connectionRefused, connectionReset, hostUnreachable,
    networkUnreachable, connectionAborted, notConnected, addrInUse, addrNotAvailable, networkDown,
    brokenPipe, alreadyExists, wouldBlock, invalidInput, invalidData, timedOut, writeZero,
    interrupted, unsupported, unexpectedEof, outOfMemory, other]

/-- The kind with this name. -/
def ofName? (s : String) : Option IoKind := all.find? (·.name == s)

theorem ofName?_name (k : IoKind) : ofName? k.name = some k := by cases k <;> decide

end IoKind

/-- An error of the operating system. -/
structure IoError where
  kind : IoKind
  text : String
  deriving DecidableEq, Repr

/-- Failures below the level of requests and responses. -/
inductive TransportError where
  | resolve (host detail : String)
  | noAddresses (host : String)
  | encode (detail : String)
  | reset
  | protocol (detail : String)
  | io (e : IoError)
  deriving DecidableEq, Repr

namespace TransportError

def message : TransportError → String
  | resolve h d => s!"failed to resolve '{h}': {d}"
  | noAddresses h => s!"'{h}' resolved to no addresses"
  | encode d => s!"failed to encode request: {d}"
  | reset => "node reset the exchange"
  | protocol d => s!"unexpected reply: {d}"
  | io e => e.text

/-- A message that the codec refuses could not be encoded, whatever the codec says of it. -/
def ofCodec (e : Coap.CodecError) : TransportError := encode e.message

/-- The texts of the errors behind it. -/
def causes : TransportError → List String
  | io e => [e.text]
  | _ => []

def ioKind : TransportError → IoKind
  | io e => e.kind
  | reset => .connectionReset
  | encode _ => .invalidInput
  | protocol _ => .invalidData
  | resolve _ _ | noAddresses _ => .notFound

end TransportError

/-- Why a call brought no success. -/
inductive CallError where
  | invalidTarget (e : TargetError)
  | transport (e : TransportError)
  | timeout
  | rejected (code : Coap.ResponseCode)
  deriving DecidableEq, Repr

namespace CallError

def message : CallError → String
  | invalidTarget e => s!"invalid target: {e.message}"
  | transport e => s!"transport error: {e.message}"
  | timeout => "timeout"
  | rejected c => s!"rejected by node: {c.title}"

/-- The texts of the errors behind it, the nearest first. -/
def causes : CallError → List String
  | invalidTarget e => [e.message]
  | transport e => e.message :: e.causes
  | _ => []

def ioKind : CallError → IoKind
  | invalidTarget _ => .invalidInput
  | transport e => e.ioKind
  | timeout => .timedOut
  | rejected _ => .connectionRefused

end CallError

/-- What was to be written is the caller's input; what was read is data. -/
def Coap.CodecError.ioKind : Coap.CodecError → IoKind
  | .encode _ | .tokenTooLong _ => .invalidInput
  | .malformed _ | .unsupportedMethod _ => .invalidData

end NodeClock
