import NodeClock.Text.Split
import NodeClock.Net.Ipv4

/-!
# IPv6 addresses

Eight groups of 16 bits in hexadecimal between colons. One run of zero groups may be left out,
which two colons show, and the last two groups may be an IPv4 address. Of the many spellings one
is written: the longest run of two or more zero groups is left out, the first of equals, and
IPv4 is used for mapped addresses only.

* `Ipv6`: an address.
* `Ipv6.render`, `Ipv6.read?`: an address and its text.
-/

namespace NodeClock.Net

/-- An IPv6 address. -/
structure Ipv6 where
  groups : List UInt16
  length_groups : groups.length = 8
  deriving DecidableEq, Repr

namespace Ipv6

/-- The address with these groups, if there are eight of them. -/
def ofGroups? (gs : List UInt16) : Option Ipv6 := if h : gs.length = 8 then some ⟨gs, h⟩ else none

/-- A group in lower-case hexadecimal, without leading zeros. -/
def renderGroup (g : UInt16) : List Char := Nat.toDigits 16 g.toNat

/-- Groups between colons. -/
def renderGroups (gs : List UInt16) : List Char := [':'].intercalate (gs.map renderGroup)

/-- How many zero groups follow from group `i` on. -/
def zerosAt (gs : List UInt16) (i : Nat) : Nat := ((gs.drop i).takeWhile (· == 0)).length

/-- The start and the length of the longest run of zero groups, the first of equals. -/
def longestZeros (gs : List UInt16) : Nat × Nat :=
  (List.range gs.length).foldl
    (fun best i => if best.2 < zerosAt gs i then (i, zerosAt gs i) else best) (0, 0)

/-- The IPv4 address that two groups spell. -/
def embedded (g h : UInt16) : Ipv4 :=
  ⟨UInt8.ofNat (g.toNat / 256), UInt8.ofNat g.toNat,
    UInt8.ofNat (h.toNat / 256), UInt8.ofNat h.toNat⟩

/-- The text of an address. -/
def render (i : Ipv6) : String :=
  match i.groups with
  | [0, 0, 0, 0, 0, 0xFFFF, g, h] => "::ffff:" ++ (embedded g h).render
  | gs =>
    let (start, length) := longestZeros gs
    String.ofList <|
      if length > 1 then
        renderGroups (gs.take start) ++ [':', ':'] ++ renderGroups (gs.drop (start + length))
      else renderGroups gs

/-- The value of a hexadecimal digit of either case. -/
def hexDigit? (c : Char) : Option Nat :=
  if '0' ≤ c ∧ c ≤ '9' then some (c.toNat - '0'.toNat)
  else if 'a' ≤ c ∧ c ≤ 'f' then some (c.toNat - 'a'.toNat + 10)
  else if 'A' ≤ c ∧ c ≤ 'F' then some (c.toNat - 'A'.toNat + 10)
  else none

/-- A group: one to four hexadecimal digits. -/
def readGroup? (s : List Char) : Option UInt16 :=
  if s.isEmpty ∨ s.length > 4 then none
  else (s.mapM hexDigit?).map fun ds => UInt16.ofNat (ds.foldl (fun n d => n * 16 + d) 0)

/-- The groups of pieces between colons, the last of which may be an IPv4 address. -/
def readTail? : List (List Char) → Option (List UInt16)
  | [] => some []
  | [s] =>
    match Ipv4.read? s with
    | some i =>
      some [UInt16.ofNat (i.a.toNat * 256 + i.b.toNat), UInt16.ofNat (i.c.toNat * 256 + i.d.toNat)]
    | none => (readGroup? s).map fun g => [g]
  | s :: rest => do return (← readGroup? s) :: (← readTail? rest)

/-- The pieces between colons of a text that may have none at all. -/
def pieces (s : List Char) : List (List Char) := if s.isEmpty then [] else s.splitOn ':'

/-- The address that a text spells. Two colons stand for one zero group at least, and only
before them no IPv4 address may stand. -/
def read? (s : List Char) : Option Ipv6 :=
  match Text.cutPair ':' s with
  | none => readTail? (pieces s) >>= ofGroups?
  | some (front, back) => do
    let front ← (pieces front).mapM readGroup?
    let back ← readTail? (pieces back)
    let found := front.length + back.length
    if found < 8 then ofGroups? (front ++ List.replicate (8 - found) 0 ++ back) else none

end Ipv6

end NodeClock.Net
