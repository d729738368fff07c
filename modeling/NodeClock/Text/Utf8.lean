/-!
# UTF-8

Text as bytes and back. A byte string is read into pieces: a character, or the longest run of
bytes that could have begun one and was broken off.

* `Utf8.encode`: the bytes of a text.
* `Utf8.pieces`: the characters and the broken runs of a byte string, in order.
* `Utf8.decode?`: the text, if no run is broken.
* `Utf8.decodeLossy`: the text with U+FFFD for each broken run.
-/

namespace NodeClock

/-- A byte string. -/
abbrev Bytes := List UInt8

namespace Utf8

/-- The bytes of a text. -/
def encode (s : String) : Bytes := s.toList.flatMap String.utf8EncodeChar

/-- A character under way: `more` bytes are missing, the next one lies in `low … high`, and
`bits` are the bits read so far. -/
structure Pending where
  more : Nat
  low : UInt8
  high : UInt8
  bits : Nat

/-- What a byte does between two characters: it is one, begins one, or can do neither. -/
inductive Lead where
  | whole (c : Char)
  | first (p : Pending)
  | stray

/-- The first byte fixes the length of a character and the range of its second byte. -/
def lead (b : UInt8) : Lead :=
  if b < 0x80 then .whole (Char.ofNat b.toNat)
  else if b < 0xC2 then .stray
  else if b < 0xE0 then .first ⟨1, 0x80, 0xBF, b.toNat - 0xC0⟩
  else if b = 0xE0 then .first ⟨2, 0xA0, 0xBF, 0⟩
  else if b = 0xED then .first ⟨2, 0x80, 0x9F, 0xD⟩
  else if b < 0xF0 then .first ⟨2, 0x80, 0xBF, b.toNat - 0xE0⟩
  else if b = 0xF0 then .first ⟨3, 0x90, 0xBF, 0⟩
  else if b < 0xF4 then .first ⟨3, 0x80, 0xBF, b.toNat - 0xF0⟩
  else if b = 0xF4 then .first ⟨3, 0x80, 0x8F, 4⟩
  else .stray

/-- What a byte between two characters yields, and what is under way after it. -/
def begin (b : UInt8) : List (Option Char) × Option Pending :=
  match lead b with
  | .whole c => ([some c], none)
  | .first p => ([], some p)
  | .stray => ([none], none)

/-- What the next byte yields. A byte out of range breaks off the character under way and is
then looked at on its own. -/
def advance : Option Pending → UInt8 → List (Option Char) × Option Pending
  | none, b => begin b
  | some p, b =>
    if p.low ≤ b ∧ b ≤ p.high then
      let bits := p.bits * 64 + (b.toNat - 0x80)
      if p.more ≤ 1 then ([some (Char.ofNat bits)], none)
      else ([], some ⟨p.more - 1, 0x80, 0xBF, bits⟩)
    else
      let (out, next) := begin b
      (none :: out, next)

/-- The pieces of a byte string, the first of which may already be under way. -/
def scan : Option Pending → Bytes → List (Option Char)
  | none, [] => []
  | some _, [] => [none]
  | st, b :: rest =>
    let (out, next) := advance st b
    out ++ scan next rest

/-- The characters of a byte string in order, `none` standing for a broken run. -/
def pieces (bs : Bytes) : List (Option Char) := scan none bs

/-- The text of a byte string without broken runs. -/
def decode? (bs : Bytes) : Option String := ((pieces bs).mapM id).map String.ofList

/-- The text of a byte string, each broken run read as U+FFFD. -/
def decodeLossy (bs : Bytes) : String := String.ofList ((pieces bs).map (·.getD '\uFFFD'))

end Utf8

end NodeClock
