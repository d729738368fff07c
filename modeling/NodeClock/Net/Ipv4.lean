import NodeClock.Text.Decimal

/-!
# IPv4 addresses

Four numbers from 0 to 255, written in decimal between dots, without leading zeros.

* `Ipv4`: an address.
* `Ipv4.render`, `Ipv4.read?`: an address and its text.
-/

namespace NodeClock.Net

/-- An IPv4 address. -/
structure Ipv4 where
  a : UInt8
  b : UInt8
  c : UInt8
  d : UInt8
  deriving DecidableEq, Repr

namespace Ipv4

/-- The four numbers between dots. -/
def render (i : Ipv4) : String :=
  ".".intercalate ([i.a, i.b, i.c, i.d].map fun x => Decimal.render x.toNat)

/-- One number: up to three digits, no leading zero, at most 255. -/
def readOctet? (s : List Char) : Option UInt8 :=
  if s.length ≤ 3 ∧ (s.head? = some '0' → s.length = 1) then
    (Decimal.read? 255 s).map UInt8.ofNat
  else none

/-- The address that a text spells. -/
def read? (s : List Char) : Option Ipv4 :=
  match (s.splitOn '.').mapM readOctet? with
  | some [a, b, c, d] => some ⟨a, b, c, d⟩
  | _ => none

end Ipv4

end NodeClock.Net
