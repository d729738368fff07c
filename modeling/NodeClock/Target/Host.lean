import NodeClock.Net.Ipv6

/-!
# Hosts

A host is an IP address, an IPv6 address in a zone, or a name.

* `Host`: a host.
* `TargetError`: why a text names no target.
* `Host.read`, `Host.render`: a host and its text.
-/

namespace NodeClock

open Net

/-- Where a node is. -/
inductive Host where
  | v4 (addr : Ipv4)
  | v6 (addr : Ipv6)
  | zoned (addr : Ipv6) (zone : String)
  | named (name : String)
  deriving DecidableEq, Repr

/-- Why a text names no target. -/
inductive TargetError where
  | emptyHost
  | invalidHost (host : String)
  | invalidZone (host : String)
  | invalidPort (port : String)
  | invalidPath (path reason : String)
  deriving DecidableEq, Repr

def TargetError.message : TargetError → String
  | .emptyHost => "host is empty"
  | .invalidHost h => s!"not an address or hostname: '{h}'"
  | .invalidZone h => s!"invalid IPv6 zone in '{h}'"
  | .invalidPort p => s!"invalid port '{p}'"
  | .invalidPath p reason => s!"invalid resource path '{p}': {reason}"

namespace Host

/-- Characters in the longest name, a final dot not counted. -/
def maxName : Nat := 253

/-- Characters in the longest label of a name. -/
def maxLabel : Nat := 63

def isLetterOrDigit (c : Char) : Bool := c.isAlpha || c.isDigit

/-- A label: letters, digits and inner hyphens. -/
def isLabel (s : List Char) : Bool :=
  !s.isEmpty && s.length ≤ maxLabel && s.head? != some '-' && s.getLast? != some '-' &&
    s.all fun c => isLetterOrDigit c || c == '-'

/-- The text without one final dot. -/
def dropFinalDot (s : List Char) : List Char := if s.getLast? = some '.' then s.dropLast else s

/-- A name: labels between dots, perhaps with a dot at the end. One of digits and dots alone
would be a mistyped address. -/
def isName (s : List Char) : Bool :=
  let s := dropFinalDot s
  !s.isEmpty && s.length ≤ maxName && !(s.all fun c => c.isDigit || c == '.') &&
    (s.splitOn '.').all isLabel

/-- A zone: letters, digits, hyphens, underscores and dots. -/
def isZone (s : List Char) : Bool :=
  !s.isEmpty && s.all fun c => isLetterOrDigit c || c == '-' || c == '_' || c == '.'

/-- The host that a text names. Names are kept in lower case, zones as they are. -/
def read (s : List Char) : Except TargetError Host :=
  if s.isEmpty then .error .emptyHost
  else match Text.cut '%' s with
    | some (addr, zone) =>
      match Ipv6.read? addr with
      | some a =>
        if isZone zone then .ok (.zoned a (String.ofList zone))
        else .error (.invalidZone (String.ofList s))
      | none => .error (.invalidZone (String.ofList s))
    | none =>
      match Ipv4.read? s, Ipv6.read? s with
      | some a, _ => .ok (.v4 a)
      | none, some a => .ok (.v6 a)
      | none, none =>
        if isName s then .ok (.named (String.ofList (s.map Char.toLower)))
        else .error (.invalidHost (String.ofList s))

/-- The text of a host; IPv6 addresses stand in brackets. -/
def render : Host → String
  | v4 a => a.render
  | v6 a => "[" ++ a.render ++ "]"
  | zoned a zone => "[" ++ a.render ++ "%" ++ zone ++ "]"
  | named n => n

end Host

end NodeClock
